import Mathlib.Tactic

/-!
# Patrols

A patrol goes through `n` places, one at each visit, and starts again with the first one
behind the last one and after a restart. Meanwhile things are hit.

`Brief n es`: nowhere in the stretch `es` of events there have been `n` visits since its
start or a restart in it. What has hit a place since it was last visited has hit it in a
brief stretch (`Recent`). So where all that is hit in a brief stretch can be made good,
it can be made good at each visit.
-/

namespace Patrol

variable {ε η : Type*} (restart visit : ε → Bool)

/-- The visits since the start or the last restart. -/
def visits (es : List ε) : ℕ :=
  es.foldl (fun k e => if restart e then 0 else if visit e then k + 1 else k) 0

/-- Less than `n` visits at a time. -/
def Brief (n : ℕ) (es : List ε) : Prop := ∀ pre, pre <+: es → visits restart visit pre < n

/-- The next place after an event. -/
def next (n p : ℕ) (e : ε) : ℕ := if restart e then 0 else if visit e then (p + 1) % n else p

/-- What the events hit. -/
def hitIn (hits : ε → Set η) (es : List ε) : Set η := {x | ∃ e ∈ es, x ∈ hits e}

/-- What is in `B` has been hit in a brief stretch at the end of the events, in which the patrol,
that comes to `p` next, has not come to `j`. -/
def Recent (n : ℕ) (hits : ε → Set η) (es : List ε) (p j : ℕ) (B : Set η) : Prop :=
  ∃ pre mid, es = pre ++ mid ∧ Brief restart visit n mid ∧
    visits restart visit mid ≤ (p + (n - 1 - j)) % n ∧ B ⊆ hitIn hits mid

variable {restart visit} {n p j : ℕ} {hits : ε → Set η} {es : List ε} {B B' : Set η} {e : ε}

theorem visits_snoc (es : List ε) (e : ε) : visits restart visit (es ++ [e]) =
    if restart e then 0 else if visit e then visits restart visit es + 1 else visits restart visit es := by
  rw [visits, List.foldl_append]
  rfl

theorem hitIn_snoc (es : List ε) (e : ε) : hitIn hits (es ++ [e]) = hitIn hits es ∪ hits e := by
  ext x
  constructor
  · rintro ⟨e', he', hx⟩
    rcases List.mem_append.1 he' with he' | he'
    · exact Or.inl ⟨e', he', hx⟩
    · rw [List.mem_singleton.1 he'] at hx
      exact Or.inr hx
  · rintro (⟨e', he', hx⟩ | hx)
    · exact ⟨e', List.mem_append_left _ he', hx⟩
    · exact ⟨e, List.mem_append_right _ (List.mem_singleton_self e), hx⟩

theorem brief_nil (hn : 0 < n) : Brief restart visit n [] := by
  intro pre hpre
  rw [List.prefix_nil.1 hpre]
  exact hn

theorem Brief.snoc (h : Brief restart visit n es) (he : visits restart visit (es ++ [e]) < n) :
    Brief restart visit n (es ++ [e]) := by
  intro pre hpre
  rcases List.prefix_concat_iff.1 hpre with rfl | hpre
  · exact he
  · exact h pre hpre

/-- Nothing is wrong with a place just after it was made good. -/
theorem Recent.empty (hn : 0 < n) : Recent restart visit n hits es p j ∅ :=
  ⟨es, [], (List.append_nil es).symm, brief_nil hn, Nat.zero_le _, Set.empty_subset _⟩

/-- **An event that is no visit to the place.** -/
theorem Recent.snoc (h : Recent restart visit n hits es p j B) (hj : j < n) (hp : p < n)
    (helse : restart e = false → visit e = true → p ≠ j) (hB : B' ⊆ B ∪ hits e) :
    Recent restart visit n hits (es ++ [e]) (next restart visit n p e) j B' := by
  obtain ⟨pre, mid, rfl, hbrief, hvisits, hsub⟩ := h
  have hbound : visits restart visit (mid ++ [e]) ≤ (next restart visit n p e + (n - 1 - j)) % n := by
    rw [visits_snoc, next]
    rcases hrestart : restart e with _ | _
    · rcases hvisit : visit e with _ | _
      · exact hvisits
      · -- the next place but one is no further away from `j`
        have hne := helse hrestart hvisit
        have hmod : ((p + 1) % n + (n - 1 - j)) % n = (p + (n - 1 - j)) % n + 1 := by
          rw [Nat.mod_add_mod, Nat.add_right_comm]
          rcases Nat.lt_or_ge (p + (n - 1 - j)) n with hlt | hge
          · rw [Nat.mod_eq_of_lt hlt]
            exact Nat.mod_eq_of_lt (by omega)
          · obtain ⟨r, hr⟩ := Nat.exists_eq_add_of_le hge
            rw [hr, Nat.add_assoc, Nat.add_mod_left, Nat.add_mod_left, Nat.mod_eq_of_lt (show r < n by omega)]
            exact Nat.mod_eq_of_lt (by omega)
        simp only [Bool.false_eq_true, if_false, if_true]
        omega
    · exact Nat.zero_le _
  refine ⟨pre, mid ++ [e], by rw [List.append_assoc], ?_, hbound, ?_⟩
  · exact hbrief.snoc (lt_of_le_of_lt hbound (Nat.mod_lt _ (by omega)))
  · rw [hitIn_snoc]
    exact hB.trans (Set.union_subset_union_left _ hsub)

/-- **What can be made good.** -/
theorem Recent.few (h : Recent restart visit n hits es p j B) {Few : Set η → Prop}
    (hmono : ∀ A A', A ⊆ A' → Few A' → Few A)
    (hrare : ∀ pre mid post, es = pre ++ mid ++ post → Brief restart visit n mid → Few (hitIn hits mid)) :
    Few B := by
  obtain ⟨pre, mid, rfl, hbrief, -, hsub⟩ := h
  exact hmono _ _ hsub (hrare pre mid [] (List.append_nil _).symm hbrief)

end Patrol
