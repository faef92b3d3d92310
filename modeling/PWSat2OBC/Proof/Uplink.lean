import PWSat2OBC.Proof.Reader
import PWSat2OBC.Spec.Uplink

/-!
# Decoding uplink frames

A frame that has all its fields is decoded to them (`decode_fields`), one that has not is refused
(`decode_short`).
-/

namespace PWSat2OBC

theorem Reader.At.readDoubleWordBE {r : Reader} {rest : List Byte} {word : BitVec 32}
    (h : r.At ((Redundancy.storeWord word).reverse ++ rest)) :
    r.readDoubleWordBE.1 = word ∧ r.readDoubleWordBE.2.At rest := by
  have hstep := (h.updateState (n := 4) rfl).1
  have hback := @At.back r _ rest 4 h rfl
  refine ⟨?_, hstep⟩
  unfold Reader.readDoubleWordBE
  dsimp only
  rw [if_pos hstep.isValid, hback (by decide) (by decide), hback (by decide) (by decide),
    hback (by decide) (by decide), hback (by decide) (by decide)]
  exact Redundancy.loadWord_storeWord word

/-- A frame that has all its fields. -/
theorem UplinkProtocol.decode_fields (securityCode word : BitVec 32) (commandCode : Byte) (parameters : List Byte)
    (hsmall : parameters.length + 5 < 2 ^ 16) :
    decode securityCode ((Redundancy.storeWord word).reverse ++ commandCode :: parameters) =
      some (if word ≠ securityCode then .failure .invalidSecurityCode else .success commandCode parameters) := by
  have h0 : (Reader.init ((Redundancy.storeWord word).reverse ++ commandCode :: parameters)).At
      ((Redundancy.storeWord word).reverse ++ commandCode :: parameters) := by
    apply Reader.at_init
    · simp
    · simp only [List.length_append, List.length_reverse, Redundancy.storeWord, List.length_cons, List.length_nil]
      omega
  obtain ⟨hcode, h1⟩ := h0.readDoubleWordBE
  obtain ⟨hcommand, h2⟩ := @Reader.At.readByte _ parameters commandCode h1
  obtain ⟨r, hread, hr⟩ := h2.readToEnd
  have hstatus : r.status = true := hr.isValid
  unfold decode
  simp only [hread, hstatus, hcode, hcommand, Bool.not_true, Bool.false_eq_true, if_false]
  split <;> rfl

/-- A frame that has not. -/
theorem UplinkProtocol.decode_short (securityCode : BitVec 32) {content : List Byte} (h : content.length < 5) :
    ∀ commandCode parameters, decode securityCode content ≠ some (.success commandCode parameters) := by
  have h1 : (Reader.init content).readDoubleWordBE.2.Consumed content 4 :=
    (Reader.Consumed.init content).updateState (n := 4) (by decide)
  have h2 : (Reader.init content).readDoubleWordBE.2.readByte.2.Consumed content 5 :=
    h1.updateState (n := 1) (by decide)
  have hstatus := h2.status_eq_false h
  intro commandCode parameters
  unfold decode
  dsimp only
  rw [Reader.readToEnd_of_not_valid hstatus]
  dsimp only
  rw [hstatus]
  simp

end PWSat2OBC
