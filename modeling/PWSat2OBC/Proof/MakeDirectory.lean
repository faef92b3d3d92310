import PWSat2OBC.Spec.Yaffs

/-!
# Directories with all that lead to them

`YaffsFileSystem::MakeDirectory` copies the path into a buffer, puts a slash behind it and cuts
the buffer at each slash in turn.

* `createAll` says what it is for: each prefix of the path that does not exist is created, the
  shortest first, until one cannot be created.
* `mkdirLoop_text`: the loop creates the prefixes of the text in the buffer.
* `completeAndInside_iff`: it is what the code does when the path is shorter than `NAME_MAX`. A
  longer one does not fit into the buffer, which shows unless a directory cannot be created
  before.
-/

namespace PWSat2OBC

namespace YaffsFileSystem

variable {σ : Type} (d : Directories σ)

/-! ## What is asked for -/

/-- One directory is created if it does not exist. -/
def createTurn (s : Made σ) (path : List Byte) : Option OSResult × Made σ :=
  if d.pathExists s.files path then (none, s)
  else
    (if (d.mkdir s.files path).1 = -1 then some (d.lastError (d.mkdir s.files path).2) else none,
      ⟨(d.mkdir s.files path).2, s.calls ++ [path]⟩)

/-- The directories are created one after the other, until one cannot be created. -/
def createAll (paths : List (List Byte)) (s : Made σ) : OSResult × Made σ :=
  ((Loops.firstSome (createTurn d) paths s).1.getD .success, (Loops.firstSome (createTurn d) paths s).2)

/-- The directories that lead to a path, the shortest first, and the path without a slash at its
end. -/
def prefixes (path : List Byte) : List (List Byte) :=
  ((List.range' 1 path.length).filter fun i =>
    path[i]? = some slash ∨ (i = path.length ∧ path.getLast? ≠ some slash)).map path.take

/-- The memory is accessed inside of the buffer only, all prefixes of the path that do not exist
are created in order, and `Success` means that all of them exist. -/
def CompleteAndInside (nameMax : ℕ) (files : σ) (path : Path) : Prop :=
  ∀ uninitialized, ∃ result made, makeDirectory d nameMax uninitialized files path = .returned result made ∧
    (result, made) = createAll d (prefixes path.1) ⟨files, []⟩ ∧
    (result = .success → ∀ p ∈ prefixes path.1, d.pathExists made.files p = true)

variable {d}

theorem createTurn_exists {s : Made σ} {path : List Byte} (h : (createTurn d s path).1 = none) :
    d.pathExists (createTurn d s path).2.files path = true := by
  unfold createTurn at h ⊢
  by_cases hpath : d.pathExists s.files path = true
  · rw [if_pos hpath]
    exact hpath
  · rw [if_neg hpath] at h ⊢
    rcases d.mkdir_status s.files path with hstatus | hstatus
    · exact d.mkdir_creates s.files path hstatus
    · rw [if_pos hstatus] at h
      exact absurd h (by simp)

theorem createTurn_keeps (s : Made σ) (path : List Byte) {other : List Byte}
    (h : d.pathExists s.files other = true) : d.pathExists (createTurn d s path).2.files other = true := by
  unfold createTurn
  split
  · exact h
  · exact d.mkdir_keeps s.files path other h

/-- All directories exist when none of them could not be created. -/
theorem createAll_exists {paths : List (List Byte)} {s t : Made σ}
    (h : Loops.firstSome (createTurn d) paths s = (none, t)) :
    ∀ p ∈ paths, d.pathExists t.files p = true := by
  induction paths using List.reverseRecOn generalizing t with
  | nil => exact fun p hp => absurd hp List.not_mem_nil
  | append_singleton paths path ih =>
    rcases hbefore : Loops.firstSome (createTurn d) paths s with ⟨_ | e, u⟩
    · rw [Loops.firstSome_snoc_none hbefore] at h
      intro p hp
      rcases List.mem_append.1 hp with hp | hp
      · have hkeeps := createTurn_keeps u path (ih hbefore p hp)
        rwa [h] at hkeeps
      · obtain rfl := List.mem_singleton.1 hp
        have hexists := @createTurn_exists _ d u p (by rw [h])
        rwa [h] at hexists
    · rw [Loops.firstSome_snoc_some hbefore] at h
      cases h

/-- The error of a directory that could not be created is not `Success`. -/
theorem createTurn_ne_success {s : Made σ} {path : List Byte} :
    ¬ (createTurn d s path).1 = some .success := by
  unfold createTurn
  by_cases hpath : d.pathExists s.files path = true
  · rw [if_pos hpath]
    exact fun h => absurd h (by simp)
  · rw [if_neg hpath]
    dsimp only
    split
    · exact fun h => d.lastError_ne _ (Option.some.inj h)
    · exact fun h => absurd h (by simp)

/-- What was created is reported as a success only when it exists. -/
theorem createAll_success {paths : List (List Byte)} {s : Made σ}
    (h : (createAll d paths s).1 = .success) :
    ∀ p ∈ paths, d.pathExists (createAll d paths s).2.files p = true := by
  rcases hloop : Loops.firstSome (createTurn d) paths s with ⟨_ | e, t⟩
  · intro p hp
    simp only [createAll, hloop]
    exact createAll_exists hloop p hp
  · obtain ⟨p, -, u, hturn⟩ := Loops.firstSome_returns (r := e) (by rw [hloop])
    simp only [createAll, hloop, Option.getD_some] at h
    rw [h] at hturn
    exact absurd hturn createTurn_ne_success

/-! ## The loop -/

section Loop

variable {status : ℤ} {s : Made σ} {buf text tail : List Byte} {i p : ℕ}

theorem strchr_eq {b c : Byte} (h : buf[i]? = some b) :
    strchr buf c i = if b = c then some (some i) else if b = 0 then some none else strchr buf c (i + 1) := by
  have hlt : i < buf.length := (List.getElem?_eq_some_iff.1 h).1
  have hget : buf[i] = b := (List.getElem?_eq_some_iff.1 h).2
  rw [strchr, List.drop_eq_getElem_cons hlt, hget]
  rfl

theorem strchr_outside {c : Byte} (h : buf.length ≤ i) : strchr buf c i = none := by
  rw [strchr, List.drop_of_length_le h]
  rfl

theorem mkdirLoop_outside (h : strchr buf slash i = none) : mkdirLoop d status s buf i = .outside := by
  rw [mkdirLoop]
  split
  · rfl
  · rename_i heq
    rw [h] at heq
    cases heq
  · rename_i heq
    rw [h] at heq
    cases heq

theorem mkdirLoop_end (h : strchr buf slash i = some none) : mkdirLoop d status s buf i =
    .returned (yaffsTranslateError status (d.lastError s.files)) s := by
  rw [mkdirLoop]
  split
  · rename_i heq
    rw [h] at heq
    cases heq
  · rfl
  · rename_i heq
    rw [h] at heq
    cases heq

theorem mkdirLoop_found (h : strchr buf slash i = some (some p)) : mkdirLoop d status s buf i =
    if d.pathExists s.files (cString (buf.set p 0)) then
      mkdirLoop d status s ((buf.set p 0).set p slash) (p + 1)
    else if (d.mkdir s.files (cString (buf.set p 0))).1 < 0 then
      .returned (yaffsTranslateError (d.mkdir s.files (cString (buf.set p 0))).1
          (d.lastError (d.mkdir s.files (cString (buf.set p 0))).2))
        ⟨(d.mkdir s.files (cString (buf.set p 0))).2, s.calls ++ [cString (buf.set p 0)]⟩
    else mkdirLoop d (d.mkdir s.files (cString (buf.set p 0))).1
      ⟨(d.mkdir s.files (cString (buf.set p 0))).2, s.calls ++ [cString (buf.set p 0)]⟩
      ((buf.set p 0).set p slash) (p + 1) := by
  rw [mkdirLoop]
  split
  · rename_i heq
    rw [h] at heq
    cases heq
  · rename_i heq
    rw [h] at heq
    cases heq
  · rename_i q heq
    rw [h] at heq
    obtain rfl : p = q := Option.some.inj (Option.some.inj heq)
    rfl

/-- A character that is not a slash is passed over. -/
theorem mkdirLoop_skip {b : Byte} (h : buf[i]? = some b) (hslash : b ≠ slash) (hzero : b ≠ 0) :
    mkdirLoop d status s buf i = mkdirLoop d status s buf (i + 1) := by
  have heq : strchr buf slash i = strchr buf slash (i + 1) := by
    rw [strchr_eq h, if_neg hslash, if_neg hzero]
  rcases hnext : strchr buf slash (i + 1) with _ | _ | p
  · rw [mkdirLoop_outside (heq.trans hnext), mkdirLoop_outside hnext]
  · rw [mkdirLoop_end (heq.trans hnext), mkdirLoop_end hnext]
  · rw [mkdirLoop_found (heq.trans hnext), mkdirLoop_found hnext]

/-- The buffer cut at a slash. -/
theorem cString_cut (htext : (0 : Byte) ∉ text) (hi : i < text.length) :
    cString ((text ++ tail).set i 0) = text.take i := by
  have hsplit : (text ++ tail).set i 0 = text.take i ++ 0 :: ((text ++ tail).drop (i + 1)) := by
    rw [List.set_eq_take_append_cons_drop, if_pos (by rw [List.length_append]; omega),
      List.take_append_of_le_length hi.le]
  rw [cString, hsplit, List.takeWhile_append_of_pos]
  · simp
  · intro b hb
    have hne : b ≠ 0 := fun h => htext (h ▸ List.mem_of_mem_take hb)
    simpa using hne

/-- The buffer after a cut has been undone. -/
theorem set_slash (h : buf[i]? = some slash) : (buf.set i 0).set i slash = buf := by
  rw [List.set_set]
  obtain ⟨hlt, hget⟩ := List.getElem?_eq_some_iff.1 h
  rw [← hget, List.set_getElem_self]

/-- The prefixes of the text that end before a slash, from an index on. -/
def cuts (text : List Byte) (i : ℕ) : List (List Byte) :=
  ((List.range' i (text.length - i)).filter fun j => text[j]? = some slash).map text.take

/-- **One cut**: the prefix is created, or the loop ends. -/
theorem mkdirLoop_cut (htext : (0 : Byte) ∉ text) (hslash : text[i]? = some slash) :
    (∃ e t, createTurn d s (text.take i) = (some e, t) ∧
        mkdirLoop d 0 s (text ++ tail) i = .returned e t) ∨
      ∃ t, createTurn d s (text.take i) = (none, t) ∧
        mkdirLoop d 0 s (text ++ tail) i = mkdirLoop d 0 t (text ++ tail) (i + 1) := by
  have hi : i < text.length := (List.getElem?_eq_some_iff.1 hslash).1
  have hbuf : (text ++ tail)[i]? = some slash := by rw [List.getElem?_append_left hi, hslash]
  have hfound : strchr (text ++ tail) slash i = some (some i) := by rw [strchr_eq hbuf, if_pos rfl]
  rw [mkdirLoop_found hfound, set_slash hbuf, cString_cut htext hi, createTurn]
  by_cases hpath : d.pathExists s.files (text.take i) = true
  · rw [if_pos hpath, if_pos hpath]
    exact Or.inr ⟨s, rfl, rfl⟩
  · rw [if_neg hpath, if_neg hpath]
    rcases d.mkdir_status s.files (text.take i) with hstatus | hstatus
    · rw [hstatus]
      exact Or.inr ⟨_, rfl, rfl⟩
    · rw [hstatus]
      exact Or.inl ⟨_, _, rfl, rfl⟩

/-- **The loop over a text** that ends in the buffer behind it. -/
theorem mkdirLoop_text (htext : (0 : Byte) ∉ text) (n : ℕ) (hn : i + n = text.length) :
    (∃ e t, Loops.firstSome (createTurn d) (cuts text i) s = (some e, t) ∧
        mkdirLoop d 0 s (text ++ tail) i = .returned e t) ∨
      ∃ t, Loops.firstSome (createTurn d) (cuts text i) s = (none, t) ∧
        mkdirLoop d 0 s (text ++ tail) i = mkdirLoop d 0 t (text ++ tail) text.length := by
  -- on what is left of the text
  induction n generalizing i s with
  | zero =>
    obtain rfl : i = text.length := by omega
    have hnil : cuts text text.length = [] := by simp [cuts]
    rw [hnil]
    exact Or.inr ⟨s, rfl, rfl⟩
  | succ n ih =>
    have hlt : i < text.length := by omega
    have hrange : List.range' i (text.length - i) = i :: List.range' (i + 1) (text.length - (i + 1)) := by
      rw [show text.length - i = (text.length - (i + 1)) + 1 by omega, List.range'_succ]
    have hget : text[i]? = some text[i] := List.getElem?_eq_getElem hlt
    by_cases hslash : text[i] = slash
    · have hcuts : cuts text i = text.take i :: cuts text (i + 1) := by
        rw [cuts, hrange, List.filter_cons_of_pos (by rw [hget, hslash]; simp), List.map_cons]
        rfl
      rw [hcuts]
      rcases @mkdirLoop_cut σ d s text tail i htext (by rw [hget, hslash]) with
        ⟨e, t, hturn, hloop⟩ | ⟨t, hturn, hloop⟩
      · rw [Loops.firstSome_cons_some hturn]
        exact Or.inl ⟨e, t, rfl, hloop⟩
      · rw [Loops.firstSome_cons_none hturn, hloop]
        exact ih (by omega)
    · have hcuts : cuts text i = cuts text (i + 1) := by
        rw [cuts, hrange, List.filter_cons_of_neg (by rw [hget]; simpa using hslash)]
        rfl
      have hzero : text[i] ≠ 0 := fun h => htext (h ▸ List.getElem_mem hlt)
      have hbuf : (text ++ tail)[i]? = some text[i] := by rw [List.getElem?_append_left hlt, hget]
      rw [hcuts, mkdirLoop_skip hbuf hslash hzero]
      exact ih (by omega)

end Loop

/-! ## The buffer -/

/-- The path with a slash at its end. -/
def withSlash (path : List Byte) : List Byte :=
  if path.getLast? = some slash then path else path ++ [slash]

theorem zero_notMem_withSlash {path : List Byte} (h : (0 : Byte) ∉ path) : (0 : Byte) ∉ withSlash path := by
  unfold withSlash
  split
  · exact h
  · rw [List.mem_append, List.mem_singleton]
    rintro (hmem | heq)
    · exact h hmem
    · exact absurd heq (by decide)

theorem getLast?_eq (path : List Byte) : path.getLast? = path[path.length - 1]? := List.getLast?_eq_getElem?

/-- The prefixes are what the loop cuts out of the buffer. -/
theorem cuts_withSlash (path : List Byte) : cuts (withSlash path) 1 = prefixes path := by
  by_cases hlast : path.getLast? = some slash
  · rw [withSlash, if_pos hlast, cuts, prefixes]
    -- at the end of the path there is no further prefix
    have hlen : 0 < path.length := List.length_pos_iff.2 (by rintro rfl; cases hlast)
    have hrange : List.range' 1 path.length = List.range' 1 (path.length - 1) ++ [path.length] := by
      conv_lhs => rw [show path.length = path.length - 1 + 1 by omega, List.range'_concat]
      congr 2
      omega
    rw [hrange, List.filter_append]
    have hend : [path.length].filter (fun i => path[i]? = some slash ∨
        (i = path.length ∧ path.getLast? ≠ some slash)) = [] := by
      rw [List.filter_cons_of_neg, List.filter_nil]
      simp [hlast]
    rw [hend, List.append_nil]
    congr 1
    apply List.filter_congr
    intro i _
    simp [hlast]
  · rw [withSlash, if_neg hlast, cuts, prefixes, List.length_append, List.length_singleton,
      Nat.add_sub_cancel]
    have hmem : ∀ i ∈ List.range' 1 path.length, i ≤ path.length := by
      intro i hi
      have hbounds := List.mem_range'_1.1 hi
      omega
    have hfilter : (List.range' 1 path.length).filter (fun i => (path ++ [slash])[i]? = some slash) =
        (List.range' 1 path.length).filter (fun i => path[i]? = some slash ∨
          (i = path.length ∧ path.getLast? ≠ some slash)) := by
      apply List.filter_congr
      intro i hi
      rcases Nat.lt_or_eq_of_le (hmem i hi) with hlt | rfl
      · rw [List.getElem?_append_left hlt]
        simp [hlt.ne]
      · simp [hlast]
    rw [hfilter]
    apply List.map_congr_left
    intro i hi
    exact List.take_append_of_le_length (hmem i (List.mem_of_mem_filter hi))

/-- A path that fits into the buffer, with its slash and a zero behind. -/
theorem endWithSlash_short {path garbage : List Byte} {nameMax : ℕ} (hpos : 0 < path.length)
    (hlt : path.length < nameMax) (hgarbage : garbage.length = nameMax + 1) :
    ∃ tail, endWithSlash (stpncpy garbage path nameMax).1 (stpncpy garbage path nameMax).2 =
      some (withSlash path ++ 0 :: tail) := by
  have hrest : (garbage.drop nameMax).length = 1 := by rw [List.length_drop]; omega
  obtain ⟨g, hg⟩ := List.length_eq_one_iff.1 hrest
  obtain ⟨n, hn⟩ : ∃ n, nameMax - path.length = n + 1 := ⟨nameMax - path.length - 1, by omega⟩
  have hcopy : stpncpy garbage path nameMax =
      (path ++ (List.replicate (n + 1) 0 ++ [g]), path.length) := by
    rw [stpncpy, List.take_of_length_le hlt.le, hn, hg, min_eq_left hlt.le, List.append_assoc]
  have hget : (path ++ (List.replicate (n + 1) 0 ++ [g]))[path.length - 1]? = path.getLast? := by
    rw [List.getElem?_append_left (by omega), getLast?_eq]
  rw [hcopy, endWithSlash, if_neg hpos.ne', hget, withSlash]
  by_cases hlast : path.getLast? = some slash
  · rw [if_neg (not_not.2 hlast), if_pos hlast]
    exact ⟨List.replicate n 0 ++ [g], rfl⟩
  · rw [if_pos hlast, if_neg hlast]
    -- the zeros behind the path leave room for two bytes
    obtain ⟨x, tail, htail⟩ : ∃ x tail, List.replicate n (0 : Byte) ++ [g] = x :: tail := by
      cases n with
      | zero => exact ⟨g, [], rfl⟩
      | succ n => exact ⟨0, List.replicate n 0 ++ [g], rfl⟩
    refine ⟨tail, ?_⟩
    have hzeros : List.replicate (n + 1) (0 : Byte) ++ [g] = 0 :: x :: tail := by
      rw [List.replicate_succ, List.cons_append, htail]
    rw [hzeros, store, if_pos (by rw [List.length_append, List.length_cons]; omega), Option.bind_some, store,
      if_pos (by simp)]
    simp

/-- A path that does not fit. -/
theorem endWithSlash_long {path garbage : List Byte} {nameMax : ℕ} (hmax : 0 < nameMax)
    (hle : nameMax ≤ path.length) (hgarbage : garbage.length = nameMax + 1) :
    endWithSlash (stpncpy garbage path nameMax).1 (stpncpy garbage path nameMax).2 =
      if path[nameMax - 1]? = some slash then some (path.take nameMax ++ garbage.drop nameMax) else none := by
  have hcopy : stpncpy garbage path nameMax = (path.take nameMax ++ garbage.drop nameMax, nameMax) := by
    rw [stpncpy, Nat.sub_eq_zero_of_le hle, List.replicate_zero, List.append_nil, min_eq_right hle]
  have hlen : (path.take nameMax).length = nameMax := by rw [List.length_take, min_eq_left hle]
  have hget : (path.take nameMax ++ garbage.drop nameMax)[nameMax - 1]? = path[nameMax - 1]? := by
    rw [List.getElem?_append_left (by omega), List.getElem?_take_of_lt (by omega)]
  rw [hcopy]
  dsimp only
  rw [endWithSlash, if_neg hmax.ne', hget]
  by_cases hlast : path[nameMax - 1]? = some slash
  · rw [if_neg (not_not.2 hlast), if_pos hlast]
  · rw [if_pos hlast, if_neg hlast]
    -- the zero behind the slash would be the byte behind the buffer
    have hbuf : (path.take nameMax ++ garbage.drop nameMax).length = nameMax + 1 := by
      rw [List.length_append, hlen, List.length_drop]
      omega
    rw [store, if_pos (by omega), Option.bind_some, store, if_neg]
    rw [List.length_set]
    omega

/-- The prefixes of a path that does not fit: those in the buffer, and longer ones. -/
theorem prefixes_long {path : List Byte} {nameMax : ℕ} (hmax : 0 < nameMax) (hle : nameMax ≤ path.length) :
    ∃ longer, prefixes path = cuts (path.take nameMax) 1 ++ longer ∧ ∀ p ∈ longer, nameMax ≤ p.length := by
  have hlen : (path.take nameMax).length = nameMax := by rw [List.length_take, min_eq_left hle]
  have hrange : List.range' 1 path.length =
      List.range' 1 (nameMax - 1) ++ List.range' nameMax (path.length - (nameMax - 1)) := by
    have happend := List.range'_append_1 (s := 1) (m := nameMax - 1) (n := path.length - (nameMax - 1))
    rw [show 1 + (nameMax - 1) = nameMax by omega,
      show nameMax - 1 + (path.length - (nameMax - 1)) = path.length by omega] at happend
    exact happend.symm
  refine ⟨((List.range' nameMax (path.length - (nameMax - 1))).filter fun i =>
    path[i]? = some slash ∨ (i = path.length ∧ path.getLast? ≠ some slash)).map path.take, ?_, ?_⟩
  · rw [prefixes, hrange, List.filter_append, List.map_append, cuts, hlen]
    congr 1
    -- a cut in the buffer is no end of the path
    have hmem : ∀ i ∈ List.range' 1 (nameMax - 1), i < nameMax := by
      intro i hi
      have hbounds := List.mem_range'_1.1 hi
      omega
    have hfilter : (List.range' 1 (nameMax - 1)).filter (fun i => path[i]? = some slash ∨
          (i = path.length ∧ path.getLast? ≠ some slash)) =
        (List.range' 1 (nameMax - 1)).filter (fun i => (path.take nameMax)[i]? = some slash) := by
      apply List.filter_congr
      intro i hi
      have hlt := hmem i hi
      rw [List.getElem?_take_of_lt hlt]
      simp [(lt_of_lt_of_le hlt hle).ne]
    rw [hfilter]
    apply List.map_congr_left
    intro i hi
    rw [List.take_take, min_eq_left (hmem i (List.mem_of_mem_filter hi)).le]
  · intro p hp
    obtain ⟨i, hi, rfl⟩ := List.mem_map.1 hp
    have hbounds := List.mem_range'_1.1 (List.mem_of_mem_filter hi)
    rw [List.length_take]
    omega

/-! ## Directories -/

/-- The path fits into the buffer, or all of the buffer is a part of the path that ends with a
slash, and one of the directories in it cannot be created. -/
def FitsOrFails (d : Directories σ) (nameMax : ℕ) (files : σ) (path : Path) : Prop :=
  0 < path.1.length ∧ (path.1.length < nameMax ∨
    (path.1[nameMax - 1]? = some slash ∧
      (createAll d ((prefixes path.1).filter (·.length < nameMax)) ⟨files, []⟩).1 ≠ .success))

section Directory

variable {nameMax : ℕ} {files : σ} {path : Path}

theorem garbage_length (uninitialized : ℕ → Byte) (n : ℕ) :
    ((List.range n).map uninitialized).length = n := by
  rw [List.length_map, List.length_range]

theorem makeDirectory_outside {uninitialized : ℕ → Byte}
    (h : endWithSlash (stpncpy ((List.range (nameMax + 1)).map uninitialized) path.1 nameMax).1
      (stpncpy ((List.range (nameMax + 1)).map uninitialized) path.1 nameMax).2 = none) :
    makeDirectory d nameMax uninitialized files path = .outside := by
  simp only [makeDirectory, h]

theorem makeDirectory_loop {uninitialized : ℕ → Byte} {buf : List Byte}
    (h : endWithSlash (stpncpy ((List.range (nameMax + 1)).map uninitialized) path.1 nameMax).1
      (stpncpy ((List.range (nameMax + 1)).map uninitialized) path.1 nameMax).2 = some buf) :
    makeDirectory d nameMax uninitialized files path = mkdirLoop d 0 ⟨files, []⟩ buf 1 := by
  simp only [makeDirectory, h]

/-- A path that is shorter than `NAME_MAX`. -/
theorem makeDirectory_short (hpos : 0 < path.1.length) (hlt : path.1.length < nameMax)
    (uninitialized : ℕ → Byte) : makeDirectory d nameMax uninitialized files path =
      .returned (createAll d (prefixes path.1) ⟨files, []⟩).1 (createAll d (prefixes path.1) ⟨files, []⟩).2 := by
  obtain ⟨tail, htail⟩ := endWithSlash_short hpos hlt (garbage_length uninitialized (nameMax + 1))
  rw [makeDirectory_loop htail, ← cuts_withSlash, createAll]
  have hzero := zero_notMem_withSlash path.2
  have hlen : 1 ≤ (withSlash path.1).length := by
    unfold withSlash
    split
    · exact hpos
    · rw [List.length_append, List.length_singleton]
      omega
  dsimp only
  rcases @mkdirLoop_text σ d ⟨files, []⟩ (withSlash path.1) (0 :: tail) 1 hzero ((withSlash path.1).length - 1)
    (by omega) with ⟨e, t, hturns, hloop⟩ | ⟨t, hturns, hloop⟩
  · rw [hloop, hturns]
    rfl
  · -- the zero behind the last slash ends the loop
    have hget : (withSlash path.1 ++ 0 :: tail)[(withSlash path.1).length]? = some 0 := by
      rw [List.getElem?_append_right (le_refl _), Nat.sub_self]
      rfl
    rw [hloop, hturns, mkdirLoop_end (by rw [strchr_eq hget, if_neg (by decide), if_pos rfl])]
    rfl

/-- A path that is not shorter, with a slash at the end of the buffer. -/
theorem makeDirectory_slash (hmax : 0 < nameMax) (hle : nameMax ≤ path.1.length)
    (hslash : path.1[nameMax - 1]? = some slash) (uninitialized : ℕ → Byte) :
    (∃ e t, Loops.firstSome (createTurn d) (cuts (path.1.take nameMax) 1) ⟨files, []⟩ = (some e, t) ∧
        makeDirectory d nameMax uninitialized files path = .returned e t) ∨
      ∃ t, Loops.firstSome (createTurn d) (cuts (path.1.take nameMax) 1) ⟨files, []⟩ = (none, t) ∧
        (uninitialized nameMax = 1 → makeDirectory d nameMax uninitialized files path = .outside) := by
  have hbuf := endWithSlash_long hmax hle (garbage_length uninitialized (nameMax + 1))
  rw [if_pos hslash] at hbuf
  have hlast : ((List.range (nameMax + 1)).map uninitialized).drop nameMax = [uninitialized nameMax] := by
    rw [List.range_succ, List.map_append, List.map_singleton, List.drop_append_of_le_length (by simp),
      List.drop_of_length_le (by simp), List.nil_append]
  rw [hlast] at hbuf
  rw [makeDirectory_loop hbuf]
  have hlen : (path.1.take nameMax).length = nameMax := by rw [List.length_take, min_eq_left hle]
  have hzero : (0 : Byte) ∉ path.1.take nameMax := fun h => path.2 (List.mem_of_mem_take h)
  -- the text fills the buffer up to its last byte, which has not been written
  rcases @mkdirLoop_text σ d ⟨files, []⟩ (path.1.take nameMax) [uninitialized nameMax] 1 hzero (nameMax - 1)
    (by omega) with ⟨e, t, hturns, hloop⟩ | ⟨t, hturns, hloop⟩
  · exact Or.inl ⟨e, t, hturns, hloop⟩
  · -- nothing ends the string in the buffer
    refine Or.inr ⟨t, hturns, fun hg => ?_⟩
    have hget : (path.1.take nameMax ++ [uninitialized nameMax])[(path.1.take nameMax).length]? = some 1 := by
      rw [List.getElem?_append_right (le_refl _), Nat.sub_self, hg]
      rfl
    rw [hloop, mkdirLoop_outside]
    rw [strchr_eq hget, if_neg (by decide), if_neg (by decide), strchr_outside]
    rw [List.length_append, List.length_singleton]

theorem length_lt_of_mem_cuts {text p : List Byte} {i : ℕ} (hi : i ≤ text.length) (h : p ∈ cuts text i) :
    p.length < text.length := by
  obtain ⟨j, hj, rfl⟩ := List.mem_map.1 h
  have hbounds := List.mem_range'_1.1 (List.mem_of_mem_filter hj)
  rw [List.length_take]
  omega

/-- The prefixes that fit into the buffer. -/
theorem short_prefixes (hmax : 0 < nameMax) (hle : nameMax ≤ path.1.length) :
    (prefixes path.1).filter (·.length < nameMax) = cuts (path.1.take nameMax) 1 := by
  have hlen : (path.1.take nameMax).length = nameMax := by rw [List.length_take, min_eq_left hle]
  obtain ⟨longer, hprefixes, hlonger⟩ := prefixes_long hmax hle
  rw [hprefixes, List.filter_append]
  have hshort : (cuts (path.1.take nameMax) 1).filter (·.length < nameMax) = cuts (path.1.take nameMax) 1 := by
    apply List.filter_eq_self.2
    intro p hp
    have hlt := length_lt_of_mem_cuts (by omega) hp
    rw [hlen] at hlt
    exact decide_eq_true hlt
  have hnone : longer.filter (·.length < nameMax) = [] := by
    apply List.filter_eq_nil_iff.2
    intro p hp
    have hge := hlonger p hp
    simpa using hge
  rw [hshort, hnone, List.append_nil]

/-- A path without characters, or a buffer without a place for it: the byte in front of the buffer
is looked at. -/
theorem not_completeAndInside_of_empty (h : min path.1.length nameMax = 0) :
    ¬ CompleteAndInside d nameMax files path := by
  intro hall
  obtain ⟨result, made, hreturns, -⟩ := hall fun _ => 0
  rw [makeDirectory_outside (by rw [stpncpy, h, endWithSlash, if_pos rfl])] at hreturns
  cases hreturns

/-- The slash takes the last byte of the buffer, and the zero comes behind it. -/
theorem not_completeAndInside_of_full (hmax : 0 < nameMax) (hle : nameMax ≤ path.1.length)
    (hslash : path.1[nameMax - 1]? ≠ some slash) : ¬ CompleteAndInside d nameMax files path := by
  intro hall
  obtain ⟨result, made, hreturns, -⟩ := hall fun _ => 0
  have hbuf := endWithSlash_long hmax hle (garbage_length (fun _ => (0 : Byte)) (nameMax + 1))
  rw [if_neg hslash] at hbuf
  rw [makeDirectory_outside hbuf] at hreturns
  cases hreturns

/-- With a slash at the end of the buffer a directory has to fail, before the end of the text is
looked for. -/
theorem completeAndInside_slash (hmax : 0 < nameMax) (hle : nameMax ≤ path.1.length)
    (hslash : path.1[nameMax - 1]? = some slash) : CompleteAndInside d nameMax files path ↔
      (createAll d ((prefixes path.1).filter (·.length < nameMax)) ⟨files, []⟩).1 ≠ .success := by
  obtain ⟨longer, hprefixes, -⟩ := prefixes_long hmax hle
  rw [short_prefixes hmax hle]
  constructor
  · intro hall
    rw [createAll]
    obtain ⟨result, made, hreturns, hcreate, -⟩ := hall fun _ => 1
    rcases @makeDirectory_slash σ d nameMax files path hmax hle hslash fun _ => 1 with
      ⟨e, t, hturns, hloop⟩ | ⟨t, -, hloop⟩
    · intro hsuccess
      rw [hturns] at hsuccess
      obtain ⟨p, -, u, hturn⟩ := Loops.firstSome_returns (r := e) (by rw [hturns])
      rw [show e = .success from hsuccess] at hturn
      exact createTurn_ne_success hturn
    · rw [hloop rfl] at hreturns
      cases hreturns
  · intro hfails uninitialized
    rw [createAll] at hfails
    rcases @makeDirectory_slash σ d nameMax files path hmax hle hslash uninitialized with
      ⟨e, t, hturns, hloop⟩ | ⟨t, hturns, -⟩
    · -- the loop ends before the longer prefixes
      have hcreate : createAll d (prefixes path.1) ⟨files, []⟩ = (e, t) := by
        rw [hprefixes, createAll, Loops.firstSome_append_some hturns]
        rfl
      refine ⟨e, t, hloop, hcreate.symm, ?_⟩
      intro hsuccess
      rw [hturns] at hfails
      exact absurd hsuccess hfails
    · rw [hturns] at hfails
      exact absurd rfl hfails

/-- **`MakeDirectory` does what it is for** exactly when the path fits into its buffer, or a
directory cannot be created before the end of the buffer is looked at. -/
theorem completeAndInside_iff (d : Directories σ) (nameMax : ℕ) (files : σ) (path : Path) :
    CompleteAndInside d nameMax files path ↔ FitsOrFails d nameMax files path := by
  rcases Nat.eq_zero_or_pos path.1.length with hzero | hpos
  · refine iff_of_false (not_completeAndInside_of_empty ?_) fun h => h.1.ne' hzero
    rw [hzero, Nat.zero_min]
  rcases Nat.lt_or_ge path.1.length nameMax with hlt | hle
  · refine iff_of_true ?_ ⟨hpos, Or.inl hlt⟩
    intro uninitialized
    exact ⟨_, _, makeDirectory_short hpos hlt uninitialized, rfl, createAll_success⟩
  rcases Nat.eq_zero_or_pos nameMax with rfl | hmax
  · refine iff_of_false (not_completeAndInside_of_empty (Nat.min_zero _)) ?_
    rintro ⟨-, hlt | ⟨-, hfails⟩⟩
    · exact Nat.not_lt_zero _ hlt
    · apply hfails
      rw [List.filter_eq_nil_iff.2 fun p _ => by simp]
      rfl
  by_cases hslash : path.1[nameMax - 1]? = some slash
  · rw [completeAndInside_slash hmax hle hslash]
    constructor
    · exact fun hfails => ⟨hpos, Or.inr ⟨hslash, hfails⟩⟩
    · rintro ⟨-, hlt | ⟨-, hfails⟩⟩
      · exact absurd hlt (not_lt.2 hle)
      · exact hfails
  · refine iff_of_false (not_completeAndInside_of_full hmax hle hslash) ?_
    rintro ⟨-, hlt | ⟨h, -⟩⟩
    · exact absurd hlt (not_lt.2 hle)
    · exact hslash h

/-- A file system without directories, in which all can be created. -/
def emptyDirectories : Directories (List (List Byte)) where
  pathExists files path := decide (path ∈ files)
  mkdir files path := (0, path :: files)
  lastError _ := .failed 2
  mkdir_status _ _ := Or.inl rfl
  mkdir_creates _ _ _ := decide_eq_true List.mem_cons_self
  mkdir_keeps _ _ _ h := decide_eq_true (List.mem_cons_of_mem _ (of_decide_eq_true h))
  lastError_ne _ := by decide

/-- A name of 256 characters. -/
def longName : Path := ⟨List.replicate 256 0x78, fun h => absurd (List.eq_of_mem_replicate h) (by decide)⟩

/-- With the `NAME_MAX` of yaffs the zero behind its slash is written behind the buffer. -/
theorem not_completeAndInside_longName : ¬ CompleteAndInside emptyDirectories 256 [] longName := by
  intro hall
  obtain ⟨result, made, hreturns, -⟩ := hall fun _ => 0
  have hlength : longName.1.length = 256 := List.length_replicate
  have hlast : longName.1[256 - 1]? ≠ some slash := by
    have hget : longName.1[256 - 1]? = some 0x78 := List.getElem?_replicate_of_lt (by decide)
    rw [hget]
    decide
  have hbuf := endWithSlash_long (by decide) hlength.ge (garbage_length (fun _ => (0 : Byte)) (256 + 1))
  rw [if_neg hlast] at hbuf
  rw [makeDirectory_outside hbuf] at hreturns
  cases hreturns

end Directory

end YaffsFileSystem

end PWSat2OBC
