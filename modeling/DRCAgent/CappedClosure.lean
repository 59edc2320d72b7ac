/-
# Closing a list by passes, up to a cap

A selection grows by passes over a fixed list of candidates. A pass looks at every
candidate once and adds it when it touches a member of the selection, also one that the
same pass has added; membership is decided by a key. The loop ends with the first pass
that adds nothing, and gives up as soon as there are more members than the cap allows.

Main results:
* `close_stable`: more passes than candidates change nothing
* `close_spec`: the loop gives up exactly when the closure is larger than the cap, and
  otherwise returns the closure
-/
import Mathlib.Data.Set.Card

namespace DRCAgent.CappedClosure

open List

variable {α K : Type*} [DecidableEq K]

section Loop

variable (key : α → K) (touches : α → α → Bool) (cap : ℕ)

/-- One candidate. -/
def visit (selected : List α) (candidate : α) : Option (List α) :=
  if key candidate ∈ selected.map key then some selected
  else if selected.any (touches candidate) then
    if cap < selected.length + 1 then none else some (selected ++ [candidate])
  else some selected

/-- One pass over the candidates. -/
def pass (candidates selected : List α) : Option (List α) :=
  candidates.foldlM (visit key touches cap) selected

/-- Passes until one adds nothing, `n` at most. -/
def close (candidates : List α) : ℕ → List α → Option (List α)
  | 0, selected => some selected
  | n + 1, selected => do
      let next ← pass key touches cap candidates selected
      if next.length = selected.length then some next else close candidates n next

/-- `x` is a start or is reached from one through candidates that touch. -/
def Reached (candidates start : List α) (x : α) : Prop :=
  ∃ s ∈ start, Relation.ReflTransGen (fun a b => b ∈ candidates ∧ touches b a = true) s x

/-- A selection on the way from the start to its closure. -/
structure Grown (candidates start selected : List α) : Prop where
  start_subset : ∀ s ∈ start, s ∈ selected
  reached : ∀ x ∈ selected, Reached touches candidates start x
  nodup : (selected.map key).Nodup

/-- The candidate is missing although it touches the selection. -/
def Missing (selected : List α) (candidate : α) : Prop :=
  key candidate ∉ selected.map key ∧ selected.any (touches candidate) = true

end Loop

variable {key : α → K} {touches : α → α → Bool} {cap : ℕ}
  {candidates all start selected next result : List α} {candidate x : α}

/-! ## One candidate -/

theorem visit_of_not_missing (h : ¬ Missing key touches selected candidate) :
    visit key touches cap selected candidate = some selected := by
  rw [visit]
  split_ifs with hkey htouch
  · rfl
  · exact absurd ⟨hkey, htouch⟩ h
  · exact absurd ⟨hkey, htouch⟩ h
  · rfl

theorem visit_of_missing (h : Missing key touches selected candidate) :
    visit key touches cap selected candidate =
      if cap < selected.length + 1 then none else some (selected ++ [candidate]) := by
  rw [visit, if_neg h.1, if_pos h.2]

omit [DecidableEq K] in
theorem Grown.refl (hnodup : (start.map key).Nodup) : Grown key touches candidates start start :=
  ⟨fun _ h => h, fun s hs => ⟨s, hs, .refl⟩, hnodup⟩

omit [DecidableEq K] in
/-- A missing candidate belongs to the closure. -/
theorem Grown.add (h : Grown key touches candidates start selected)
    (hmem : candidate ∈ candidates) (hmissing : Missing key touches selected candidate) :
    Grown key touches candidates start (selected ++ [candidate]) := by
  refine ⟨fun s hs => mem_append_left _ (h.start_subset s hs), fun y hy => ?_, ?_⟩
  · rcases mem_append.1 hy with hy | hy
    · exact h.reached y hy
    · rw [mem_singleton.1 hy]
      obtain ⟨member, hmember, htouch⟩ := any_eq_true.1 hmissing.2
      obtain ⟨s, hs, hpath⟩ := h.reached member hmember
      exact ⟨s, hs, hpath.tail ⟨hmem, htouch⟩⟩
  · rw [map_append, nodup_append]
    refine ⟨h.nodup, nodup_singleton _, fun a ha b hb hab => hmissing.1 ?_⟩
    rw [← mem_singleton.1 hb, ← hab]
    exact ha

/-! ## One pass -/

theorem pass_nil : pass key touches cap [] selected = some selected := rfl

theorem pass_cons_of_not_missing (h : ¬ Missing key touches selected candidate)
    (rest : List α) :
    pass key touches cap (candidate :: rest) selected = pass key touches cap rest selected := by
  rw [pass, foldlM_cons, visit_of_not_missing h]
  rfl

theorem pass_cons_of_missing (h : Missing key touches selected candidate) (rest : List α) :
    pass key touches cap (candidate :: rest) selected =
      if cap < selected.length + 1 then none
      else pass key touches cap rest (selected ++ [candidate]) := by
  rw [pass, foldlM_cons, visit_of_missing h]
  split_ifs
  · rfl
  · rfl

/-- A pass that gives up has seen more members of the closure than the cap. -/
theorem pass_eq_none (hgrown : Grown key touches all start selected)
    (hsub : ∀ c ∈ candidates, c ∈ all) (h : pass key touches cap candidates selected = none) :
    ∃ s, Grown key touches all start s ∧ cap < s.length := by
  induction candidates generalizing selected with
  | nil => exact absurd h (by rw [pass_nil]; simp)
  | cons c rest ih =>
    have hrest : ∀ c ∈ rest, c ∈ all := fun c hc => hsub c (mem_cons_of_mem _ hc)
    by_cases hmissing : Missing key touches selected c
    · have hadded := hgrown.add (hsub c mem_cons_self) hmissing
      rw [pass_cons_of_missing hmissing] at h
      split_ifs at h with hcap
      · exact ⟨_, hadded, by rw [length_append]; exact hcap⟩
      · exact ih hadded hrest h
    · rw [pass_cons_of_not_missing hmissing] at h
      exact ih hgrown hrest h

/-- A pass that ends keeps the selection, adds members of the closure and stays within
the cap. -/
theorem pass_eq_some (hgrown : Grown key touches all start selected)
    (hsub : ∀ c ∈ candidates, c ∈ all)
    (h : pass key touches cap candidates selected = some next) :
    Grown key touches all start next ∧ selected <+: next ∧
      (selected.length ≤ cap → next.length ≤ cap) := by
  induction candidates generalizing selected with
  | nil =>
    obtain rfl : selected = next := Option.some.inj h
    exact ⟨hgrown, prefix_rfl, id⟩
  | cons c rest ih =>
    have hrest : ∀ c ∈ rest, c ∈ all := fun c hc => hsub c (mem_cons_of_mem _ hc)
    by_cases hmissing : Missing key touches selected c
    · have hadded := hgrown.add (hsub c mem_cons_self) hmissing
      rw [pass_cons_of_missing hmissing] at h
      split_ifs at h with hcap
      obtain ⟨hnext, hprefix, hlength⟩ := ih hadded hrest h
      refine ⟨hnext, (prefix_append _ _).trans hprefix, fun _ => hlength ?_⟩
      rw [length_append, length_singleton]
      omega
    · rw [pass_cons_of_not_missing hmissing] at h
      exact ih hgrown hrest h

/-- A pass that adds nothing has found nothing missing. -/
theorem not_missing_of_pass (h : pass key touches cap candidates selected = some next)
    (hlength : next.length = selected.length) :
    next = selected ∧ ∀ c ∈ candidates, ¬ Missing key touches selected c := by
  -- a pass never makes the selection shorter
  have hlonger : ∀ {candidates selected next : List α},
      pass key touches cap candidates selected = some next → selected.length ≤ next.length := by
    intro candidates
    induction candidates with
    | nil =>
      intro selected next h
      obtain rfl : selected = next := Option.some.inj h
      exact le_rfl
    | cons c rest ih =>
      intro selected next h
      by_cases hmissing : Missing key touches selected c
      · rw [pass_cons_of_missing hmissing] at h
        split_ifs at h
        have := ih h
        rw [length_append] at this
        omega
      · rw [pass_cons_of_not_missing hmissing] at h
        exact ih h
  induction candidates with
  | nil =>
    obtain rfl : selected = next := Option.some.inj h
    exact ⟨rfl, fun c hc => absurd hc not_mem_nil⟩
  | cons c rest ih =>
    by_cases hmissing : Missing key touches selected c
    · -- the selection would have grown
      rw [pass_cons_of_missing hmissing] at h
      split_ifs at h
      have := hlonger h
      rw [length_append, length_singleton] at this
      omega
    · rw [pass_cons_of_not_missing hmissing] at h
      obtain ⟨rfl, hrest⟩ := ih h
      exact ⟨rfl, forall_mem_cons.2 ⟨hmissing, hrest⟩⟩

/-! ## The loop -/

omit [DecidableEq K] in
theorem Reached.mem (h : Reached touches candidates start x) : x ∈ start ∨ x ∈ candidates := by
  obtain ⟨s, hs, hpath⟩ := h
  rcases Relation.ReflTransGen.cases_tail hpath with rfl | ⟨_, -, hmem, -⟩
  · exact .inl hs
  · exact .inr hmem

omit [DecidableEq K] in
/-- A selection has at most as many members as the start and the candidates. -/
theorem Grown.length_le (h : Grown key touches candidates start selected) :
    selected.length ≤ start.length + candidates.length := by
  have hsub : selected.map key ⊆ (start ++ candidates).map key := by
    intro k hk
    obtain ⟨y, hy, rfl⟩ := mem_map.1 hk
    exact mem_map_of_mem (mem_append.2 (h.reached y hy).mem)
  have hle := (subperm_of_subset h.nodup hsub).length_le
  rwa [length_map, length_map, length_append] at hle

/-- A pass that is not the last one adds a member. -/
theorem length_lt_of_pass (hgrown : Grown key touches candidates start selected)
    (h : pass key touches cap candidates selected = some next)
    (hlength : next.length ≠ selected.length) : selected.length < next.length := by
  have := (pass_eq_some hgrown (fun c hc => hc) h).2.1.length_le
  omega

/-- More passes than candidates change nothing. -/
theorem close_stable (n : ℕ) (hgrown : Grown key touches candidates start selected)
    (hn : start.length + candidates.length < selected.length + n) :
    close key touches cap candidates n selected =
      close key touches cap candidates (n + 1) selected := by
  induction n generalizing selected with
  | zero =>
    have := hgrown.length_le
    omega
  | succ n ih =>
    rw [close, close]
    cases hpass : pass key touches cap candidates selected with
    | none => rfl
    | some next =>
      show (if _ then _ else _) = (if _ then _ else _)
      by_cases hlength : next.length = selected.length
      · rw [if_pos hlength, if_pos hlength]
      · rw [if_neg hlength, if_neg hlength]
        have hlt := length_lt_of_pass hgrown hpass hlength
        exact ih (pass_eq_some hgrown (fun c hc => hc) hpass).1 (by omega)

/-- The loop gives up only over a selection that is larger than the cap. -/
theorem close_eq_none (n : ℕ) (hgrown : Grown key touches candidates start selected)
    (h : close key touches cap candidates n selected = none) :
    ∃ s, Grown key touches candidates start s ∧ cap < s.length := by
  induction n generalizing selected with
  | zero => cases h
  | succ n ih =>
    rw [close] at h
    cases hpass : pass key touches cap candidates selected with
    | none => exact pass_eq_none hgrown (fun c hc => hc) hpass
    | some next =>
      rw [hpass] at h
      replace h : (if next.length = selected.length then some next
        else close key touches cap candidates n next) = none := h
      split_ifs at h
      exact ih (pass_eq_some hgrown (fun c hc => hc) hpass).1 h

/-- The loop ends within the cap, with nothing missing. -/
theorem close_eq_some (n : ℕ) (hgrown : Grown key touches candidates start selected)
    (hn : start.length + candidates.length < selected.length + n)
    (hcap : selected.length ≤ cap)
    (h : close key touches cap candidates n selected = some result) :
    Grown key touches candidates start result ∧ result.length ≤ cap ∧
      ∀ c ∈ candidates, ¬ Missing key touches result c := by
  -- the passes that are left outnumber the candidates that may still be added
  induction n generalizing selected with
  | zero =>
    have := hgrown.length_le
    omega
  | succ n ih =>
    rw [close] at h
    cases hpass : pass key touches cap candidates selected with
    | none =>
      rw [hpass] at h
      cases h
    | some next =>
      rw [hpass] at h
      replace h : (if next.length = selected.length then some next
        else close key touches cap candidates n next) = some result := h
      obtain ⟨hnext, -, hnextcap⟩ := pass_eq_some hgrown (fun c hc => hc) hpass
      split_ifs at h with hlength
      · obtain rfl := Option.some.inj h
        obtain ⟨rfl, hall⟩ := not_missing_of_pass hpass hlength
        exact ⟨hgrown, hcap, hall⟩
      · have hlt := length_lt_of_pass hgrown hpass hlength
        exact ih hnext (by omega) (hnextcap hcap) h

/-! ## The closure -/

/-- With nothing missing, the selection is the closure. -/
theorem Grown.mem_iff (hgrown : Grown key touches candidates start selected)
    (hkeys : ∀ a ∈ start ++ candidates, ∀ b ∈ start ++ candidates, key a = key b → a = b)
    (hclosed : ∀ c ∈ candidates, ¬ Missing key touches selected c) :
    x ∈ selected ↔ Reached touches candidates start x := by
  refine ⟨hgrown.reached x, ?_⟩
  rintro ⟨s, hs, hpath⟩
  induction hpath with
  | refl => exact hgrown.start_subset s hs
  | @tail a b _ hstep ih =>
    obtain ⟨hmem, htouch⟩ := hstep
    have hany : selected.any (touches b) = true := any_eq_true.2 ⟨a, ih, htouch⟩
    have hkey : key b ∈ selected.map key := by
      by_contra hkey
      exact hclosed b hmem ⟨hkey, hany⟩
    -- a member with the key of the candidate is the candidate
    obtain ⟨y, hy, heq⟩ := mem_map.1 hkey
    have hsame := hkeys y (mem_append.2 (hgrown.reached y hy).mem) b (mem_append_right _ hmem) heq
    rwa [← hsame]

omit [DecidableEq K] in
theorem finite_reached : {x | Reached touches candidates start x}.Finite := by
  refine (finite_toSet (start ++ candidates)).subset fun x hx => ?_
  exact mem_append.2 hx.mem

omit [DecidableEq K] in
theorem Grown.length_le_ncard (hgrown : Grown key touches candidates start selected) :
    selected.length ≤ {x | Reached touches candidates start x}.ncard := by
  classical
  have hcard : selected.toFinset.card = selected.length :=
    toFinset_card_of_nodup (Nodup.of_map key hgrown.nodup)
  rw [← hcard, ← Set.ncard_coe_finset]
  refine Set.ncard_le_ncard (fun x hx => ?_) finite_reached
  exact hgrown.reached x (mem_toFinset.1 hx)

/-- **The closure under a cap.**  The loop gives up exactly when the closure is larger than
the cap; what it returns is the closure. -/
theorem close_spec (n : ℕ) (hn : candidates.length < n) (hcap : start.length ≤ cap)
    (hnodup : (start.map key).Nodup)
    (hkeys : ∀ a ∈ start ++ candidates, ∀ b ∈ start ++ candidates, key a = key b → a = b) :
    (close key touches cap candidates n start = none ↔
      cap < {x | Reached touches candidates start x}.ncard) ∧
    ∀ result, close key touches cap candidates n start = some result →
      (result.map key).Nodup ∧ ∀ x, x ∈ result ↔ Reached touches candidates start x := by
  have hstart : Grown key touches candidates start start := Grown.refl hnodup
  have hsome : ∀ result, close key touches cap candidates n start = some result →
      (result.map key).Nodup ∧ result.length ≤ cap ∧
        ∀ x, x ∈ result ↔ Reached touches candidates start x := by
    intro result h
    obtain ⟨hgrown, hlength, hclosed⟩ := close_eq_some n hstart (by omega) hcap h
    exact ⟨hgrown.nodup, hlength, fun x => hgrown.mem_iff hkeys hclosed⟩
  refine ⟨⟨fun h => ?_, fun h => ?_⟩, fun result hresult => ?_⟩
  · obtain ⟨s, hgrown, hlength⟩ := close_eq_none n hstart h
    exact hlength.trans_le hgrown.length_le_ncard
  · cases hclose : close key touches cap candidates n start with
    | none => rfl
    | some result =>
      classical
      obtain ⟨hkeysNodup, hlength, hmem⟩ := hsome result hclose
      have hset : {x | Reached touches candidates start x} = (result.toFinset : Set α) := by
        ext x
        rw [Finset.mem_coe, mem_toFinset]
        exact (hmem x).symm
      rw [hset, Set.ncard_coe_finset] at h
      have := toFinset_card_le result
      omega
  · obtain ⟨hnodup, -, hmem⟩ := hsome result hresult
    exact ⟨hnodup, hmem⟩

end DRCAgent.CappedClosure
