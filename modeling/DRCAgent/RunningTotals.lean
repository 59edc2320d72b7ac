/-
# Running totals under capacities

Items have an amount, of either sign, and a capacity or none. A list of items is admitted
when the running total stays within the capacity of each item as the item is added.

Which orders of a list are admitted can be told from the amounts. The total is highest at an
item if all that adds comes before it. It is lowest, in an order that is admitted, if what
takes away comes first, with the greatest slack in front, and what adds follows by capacity.

Main results:

* `forall_perm_admits_iff`: when every order is admitted, for each of several keys that are
  counted apart.
* `exists_perm_admits_iff`: when some order is.
-/
import Mathlib

namespace RunningTotals

open List

variable {ι κ α : Type*}

/-! ## Totals -/

section Totals

variable [AddCommGroup α] {amount : ι → α} {l l' before after : List ι} {c : ι}

/-- The amount of the items. -/
def total (amount : ι → α) (l : List ι) : α := (l.map amount).sum

@[simp] theorem total_nil : total amount [] = 0 := rfl

@[simp] theorem total_cons : total amount (c :: l) = amount c + total amount l := by
  rw [total, total, map_cons, sum_cons]

@[simp] theorem total_append : total amount (l ++ l') = total amount l + total amount l' := by
  rw [total, total, total, map_append, sum_append]

theorem total_perm (h : l.Perm l') : total amount l = total amount l' := (h.map _).sum_eq

theorem total_split : total amount (before ++ c :: after) =
    total amount before + amount c + total amount after := by
  rw [total_append, total_cons, add_assoc]

end Totals

variable [AddCommGroup α] [LinearOrder α] (amount : ι → α) (cap : ι → WithTop α)

/-- The total stays within the capacities, from a given total on. -/
def AdmitsFrom (start : α) : List ι → Prop
  | [] => True
  | c :: rest => ((start + amount c : α) : WithTop α) ≤ cap c ∧
      AdmitsFrom (start + amount c) rest

/-- The items are admitted in this order. -/
def Admits (l : List ι) : Prop := AdmitsFrom amount cap 0 l

/-- The highest total that there can be at an item, once it is added. -/
def greatestTotal (l : List ι) (c : ι) : α :=
  min (amount c) 0 + total (fun d => max (amount d) 0) l

/-- What the total may be before an item is added. -/
def slack (c : ι) : WithTop α := cap c + ((-amount c : α) : WithTop α)

/-- The lowest total that there can be at an item, once it is added, in an order that is
admitted. -/
def leastTotal (l : List ι) (c : ι) : α :=
  if amount c < 0 then
    total (fun d =>
      if amount d < 0 ∧ slack amount cap c < slack amount cap d then amount d else 0) l + amount c
  else total (fun d => if amount d < 0 ∨ cap d ≤ cap c then amount d else 0) l

variable {amount cap} {start : α} {l l' before after : List ι} {c d : ι}

/-- The items are admitted when each is, after those before it. -/
theorem admitsFrom_iff : AdmitsFrom amount cap start l ↔ ∀ before c after,
    l = before ++ c :: after →
      ((start + total amount before + amount c : α) : WithTop α) ≤ cap c := by
  induction l generalizing start with
  | nil => simp [AdmitsFrom]
  | cons first rest ih =>
    rw [AdmitsFrom, ih]
    constructor
    · rintro ⟨hfirst, hrest⟩ before c after heq
      cases before with
      | nil =>
        obtain ⟨rfl, -⟩ := cons.inj heq
        rwa [total_nil, add_zero]
      | cons b before =>
        obtain ⟨rfl, htail⟩ := cons.inj heq
        rw [total_cons, ← add_assoc]
        exact hrest before c after htail
    · intro h
      refine ⟨by simpa using h [] first rest rfl, fun before c after heq => ?_⟩
      have hlater := h (first :: before) c after (by rw [heq, cons_append])
      rwa [total_cons, ← add_assoc] at hlater

theorem admits_iff : Admits amount cap l ↔ ∀ before c after, l = before ++ c :: after →
    ((total amount before + amount c : α) : WithTop α) ≤ cap c := by
  rw [Admits, admitsFrom_iff]
  simp only [zero_add]

theorem greatestTotal_perm (h : l.Perm l') :
    greatestTotal amount l c = greatestTotal amount l' c := by
  rw [greatestTotal, greatestTotal, total_perm h]

theorem leastTotal_perm (h : l.Perm l') :
    leastTotal amount cap l c = leastTotal amount cap l' c := by
  rw [leastTotal, leastTotal, total_perm h, total_perm h]

theorem greatestTotal_split : greatestTotal amount (before ++ c :: after) c =
    total (fun d => max (amount d) 0) before + amount c +
      total (fun d => max (amount d) 0) after := by
  have hamount := min_add_max (amount c) 0
  rw [add_zero] at hamount
  rw [greatestTotal, total_split]
  conv_rhs => rw [← hamount]
  abel

/-- What adds, alone. -/
theorem total_filter_nonneg :
    total amount (l.filter fun d => 0 ≤ amount d) = total (fun d => max (amount d) 0) l := by
  induction l with
  | nil => rfl
  | cons d rest ih =>
    rw [filter_cons, total_cons]
    by_cases hd : 0 ≤ amount d
    · rw [if_pos (decide_eq_true hd), total_cons, ih, max_eq_left hd]
    · rw [if_neg (by simpa using hd), ih, max_eq_right (not_le.1 hd).le, zero_add]

variable [IsOrderedAddMonoid α]

theorem le_slack_iff {a : α} :
    (a : WithTop α) ≤ slack amount cap c ↔ ((a + amount c : α) : WithTop α) ≤ cap c := by
  rw [slack]
  cases hcap : cap c with
  | top => simp
  | coe k =>
    rw [← WithTop.coe_add, WithTop.coe_le_coe, WithTop.coe_le_coe, ← sub_eq_add_neg,
      le_sub_iff_add_le]

theorem total_le_total {f g : ι → α} (h : ∀ d ∈ l, f d ≤ g d) : total f l ≤ total g l :=
  sum_le_sum h

theorem total_nonneg {f : ι → α} (h : ∀ d ∈ l, 0 ≤ f d) : 0 ≤ total f l := by
  refine sum_nonneg fun a ha => ?_
  obtain ⟨d, hd, rfl⟩ := mem_map.1 ha
  exact h d hd

theorem total_nonpos {f : ι → α} (h : ∀ d ∈ l, f d ≤ 0) : total f l ≤ 0 :=
  (total_le_total h).trans (by simp [total])

/-! ## Every order -/

/-- No order has a higher total at the item. -/
theorem running_le_greatestTotal :
    total amount before + amount c ≤ greatestTotal amount (before ++ c :: after) c := by
  have hbefore : total amount before ≤ total (fun d => max (amount d) 0) before :=
    total_le_total fun _ _ => le_max_left _ _
  have hafter : 0 ≤ total (fun d => max (amount d) 0) after :=
    total_nonneg fun _ _ => le_max_right _ _
  rw [greatestTotal_split]
  calc total amount before + amount c
      ≤ total (fun d => max (amount d) 0) before + amount c := by gcongr
    _ ≤ total (fun d => max (amount d) 0) before + amount c +
          total (fun d => max (amount d) 0) after := le_add_of_nonneg_right hafter

theorem total_le_greatestTotal (hc : c ∈ l) : total amount l ≤ greatestTotal amount l c := by
  obtain ⟨before, after, rfl⟩ := append_of_mem hc
  rw [total_split, greatestTotal_split]
  have hle : ∀ m : List ι, total amount m ≤ total (fun d => max (amount d) 0) m := fun m =>
    total_le_total fun _ _ => le_max_left _ _
  exact add_le_add (add_le_add (hle before) le_rfl) (hle after)

omit [IsOrderedAddMonoid α] in
/-- All that adds can come before an item. -/
theorem exists_greatest_order (hc : c ∈ l) : ∃ before after, (before ++ c :: after).Perm l ∧
    total amount before + amount c = greatestTotal amount l c := by
  obtain ⟨left, right, rfl⟩ := append_of_mem hc
  let others := left ++ right
  refine ⟨others.filter fun d => 0 ≤ amount d, others.filter fun d => !decide (0 ≤ amount d),
    ?_, ?_⟩
  · refine perm_middle.trans ((Perm.cons c ?_).trans perm_middle.symm)
    exact filter_append_perm _ _
  · rw [total_filter_nonneg, greatestTotal_split, total_append]
    abel

/-- **Every order is admitted**, for each key, exactly when each capacity admits the item after
all that adds to the total of its key. -/
theorem forall_perm_admits_iff [DecidableEq κ] {key : ι → κ} :
    (∀ l' : List ι, l'.Perm l → ∀ k, Admits amount cap (l'.filter (key · = k))) ↔
      ∀ c ∈ l, ((greatestTotal amount (l.filter (key · = key c)) c : α) : WithTop α) ≤ cap c := by
  constructor
  · intro h c hc
    have hin : c ∈ l.filter (key · = key c) := mem_filter.2 ⟨hc, by simp⟩
    obtain ⟨before, after, hperm, htotal⟩ := @exists_greatest_order _ _ _ _ amount _ _ hin
    let others := l.filter fun d => !decide (key d = key c)
    have hadmits := h ((before ++ c :: after) ++ others)
      ((hperm.append_right others).trans (filter_append_perm _ _)) (key c)
    have hkeep : (before ++ c :: after).filter (key · = key c) = before ++ c :: after :=
      filter_eq_self.2 fun d hd => (mem_filter.1 (hperm.subset hd)).2
    have hothers : others.filter (key · = key c) = [] := by
      rw [filter_eq_nil_iff]
      intro d hd
      have hkey := (mem_filter.1 hd).2
      simpa using hkey
    rw [filter_append, hkeep, hothers, append_nil, admits_iff] at hadmits
    rw [← htotal]
    exact hadmits before c after rfl
  · intro h l' hperm k
    rw [admits_iff]
    intro before c after heq
    have hc : c ∈ l'.filter (key · = k) := by
      rw [heq]
      exact mem_append_right _ mem_cons_self
    obtain ⟨hmem, hkey⟩ := mem_filter.1 hc
    obtain rfl := of_decide_eq_true hkey
    refine le_trans (WithTop.coe_le_coe.2 ?_) (h c (hperm.subset hmem))
    rw [← greatestTotal_perm (hperm.filter _), heq]
    exact running_le_greatestTotal

/-! ## Some order -/

section SomeOrder

/-- What takes away comes first, with the greatest slack in front, and what adds by
capacity. -/
def Precedes (amount : ι → α) (cap : ι → WithTop α) (c d : ι) : Prop :=
  if amount c < 0 then amount d < 0 → slack amount cap d ≤ slack amount cap c
  else 0 ≤ amount d ∧ cap c ≤ cap d

omit [IsOrderedAddMonoid α] in
theorem precedes_total (c d : ι) : Precedes amount cap c d ∨ Precedes amount cap d c := by
  rw [Precedes, Precedes]
  rcases lt_or_ge (amount c) 0 with hc | hc <;> rcases lt_or_ge (amount d) 0 with hd | hd
  · rw [if_pos hc, if_pos hd]
    exact (le_total _ _).imp (fun h _ => h) (fun h _ => h)
  · rw [if_pos hc]
    exact .inl fun hneg => absurd hneg (not_lt.2 hd)
  · rw [if_pos hd]
    exact .inr fun hneg => absurd hneg (not_lt.2 hc)
  · rw [if_neg (not_lt.2 hc), if_neg (not_lt.2 hd)]
    exact (le_total _ _).imp (fun h => ⟨hd, h⟩) (fun h => ⟨hc, h⟩)

omit [IsOrderedAddMonoid α] in
theorem precedes_trans {b c d : ι} (hbc : Precedes amount cap b c)
    (hcd : Precedes amount cap c d) : Precedes amount cap b d := by
  rw [Precedes] at hbc hcd ⊢
  split_ifs at hbc hcd ⊢ with hb hc hc
  · exact fun hd => (hcd hd).trans (hbc hc)
  · exact fun hd => absurd hd (not_lt.2 hcd.1)
  · exact absurd hc (not_lt.2 hbc.1)
  · exact ⟨hcd.1, hbc.2.trans hcd.2⟩

/-- An order by `Precedes` has the least totals. -/
theorem running_le_leastTotal (hsorted : (before ++ c :: after).Pairwise (Precedes amount cap)) :
    total amount before + amount c ≤ leastTotal amount cap (before ++ c :: after) c := by
  obtain ⟨-, hrest, hacross⟩ := pairwise_append.1 hsorted
  obtain ⟨hafter, -⟩ := pairwise_cons.1 hrest
  have hbefore : ∀ d ∈ before, Precedes amount cap d c := fun d hd =>
    hacross d hd c mem_cons_self
  rw [leastTotal]
  split_ifs with hc
  · -- what comes before takes away, and nothing after has a greater slack
    rw [total_split, if_neg (fun h => lt_irrefl _ h.2), add_zero]
    gcongr
    refine le_trans (total_le_total fun d hd => ?_) (le_add_of_nonneg_right (total_nonneg
      fun d hd => ?_))
    · have hd := hbefore d hd
      rw [Precedes] at hd
      split_ifs at hd with hneg
      · split_ifs
        · exact le_rfl
        · exact hneg.le
      · exact absurd hc (not_lt.2 hd.1)
    · have hd := hafter d hd
      rw [Precedes, if_pos hc] at hd
      rw [if_neg fun h => not_le.2 h.2 (hd h.1)]
  · -- what comes after adds
    rw [total_split, if_pos (.inr le_rfl)]
    refine le_trans (add_le_add_left (total_le_total fun d hd => ?_) _)
      (le_add_of_nonneg_right (total_nonneg fun d hd => ?_))
    · have hd := hbefore d hd
      rw [Precedes] at hd
      split_ifs at hd with hneg
      · rw [if_pos (.inl hneg)]
      · rw [if_pos (.inr hd.2)]
    · have hd := hafter d hd
      rw [Precedes, if_neg hc] at hd
      split_ifs
      · exact hd.1
      · exact le_rfl

/-- The first item with a property. -/
theorem exists_first {P : ι → Prop} (hc : c ∈ l) (h : P c) : ∃ before e after,
    l = before ++ e :: after ∧ P e ∧ ∀ d ∈ before, ¬ P d := by
  classical
  obtain ⟨e, he⟩ := Option.isSome_iff_exists.1
    (find?_isSome (p := fun d => decide (P d)).2 ⟨c, hc, decide_eq_true h⟩)
  obtain ⟨hP, before, after, heq, hbefore⟩ := find?_eq_some_iff_append.1 he
  exact ⟨before, e, after, heq, of_decide_eq_true hP, fun d hd => by simpa using hbefore d hd⟩

/-- The last item with a property. -/
theorem exists_last {P : ι → Prop} (hc : c ∈ l) (h : P c) : ∃ before e after,
    l = before ++ e :: after ∧ P e ∧ ∀ d ∈ after, ¬ P d := by
  obtain ⟨before, e, after, heq, hP, hbefore⟩ := exists_first (mem_reverse.2 hc) h
  refine ⟨after.reverse, e, before.reverse, ?_, hP, fun d hd => hbefore d (mem_reverse.1 hd)⟩
  rw [← reverse_reverse l, heq, reverse_append, reverse_cons, append_assoc, singleton_append]

/-- An order that is admitted has the least total within the capacity. -/
theorem leastTotal_le (h : Admits amount cap l) (hc : c ∈ l) :
    ((leastTotal amount cap l c : α) : WithTop α) ≤ cap c := by
  rw [admits_iff] at h
  rw [leastTotal]
  split_ifs with hneg
  · -- the first that takes away and has no greater slack
    obtain ⟨before, e, after, heq, ⟨he, hslack⟩, hbefore⟩ := exists_first
      (P := fun d => amount d < 0 ∧ slack amount cap d ≤ slack amount cap c) hc ⟨hneg, le_rfl⟩
    rw [← le_slack_iff]
    refine le_trans ?_ ((le_slack_iff.2 (h before e after heq)).trans hslack)
    rw [WithTop.coe_le_coe, heq, total_split]
    have hleft : total (fun d => if amount d < 0 ∧ slack amount cap c < slack amount cap d then
        amount d else 0) before ≤ total amount before := by
      refine total_le_total fun d hd => ?_
      have hd := hbefore d hd
      split_ifs with hcond
      · exact le_rfl
      · by_contra hlt
        rw [not_le] at hlt
        exact hcond ⟨hlt, not_le.1 fun hle => hd ⟨hlt, hle⟩⟩
    have htakes : ∀ d, (if amount d < 0 ∧ slack amount cap c < slack amount cap d then
        amount d else 0) ≤ 0 := by
      intro d
      split_ifs with hcond
      · exact hcond.1.le
      · exact le_rfl
    exact (add_le_of_nonpos_right (total_nonpos fun d _ => htakes d)).trans
      ((add_le_of_nonpos_right (htakes e)).trans hleft)
  · -- the last that adds and has no greater capacity
    obtain ⟨before, e, after, heq, ⟨he, hcap⟩, hafter⟩ := exists_last
      (P := fun d => 0 ≤ amount d ∧ cap d ≤ cap c) hc ⟨not_lt.1 hneg, le_rfl⟩
    refine le_trans ?_ ((h before e after heq).trans hcap)
    rw [WithTop.coe_le_coe, heq, total_split, if_pos (.inr hcap)]
    have hleft : total (fun d => if amount d < 0 ∨ cap d ≤ cap c then amount d else 0) before ≤
        total amount before := by
      refine total_le_total fun d hd => ?_
      split_ifs with hcond
      · exact le_rfl
      · exact not_lt.1 fun hlt => hcond (.inl hlt)
    have hright : total (fun d => if amount d < 0 ∨ cap d ≤ cap c then amount d else 0) after ≤
        0 := by
      refine total_nonpos fun d hd => ?_
      have hd := hafter d hd
      split_ifs with hcond
      · by_contra hlt
        rw [not_le] at hlt
        rcases hcond with hcond | hcond
        · exact lt_asymm hcond hlt
        · exact hd ⟨hlt.le, hcond⟩
      · exact le_rfl
    exact (add_le_of_nonpos_right hright).trans (by gcongr)

/-- **Some order is admitted**, for all keys, exactly when each capacity admits the least total
of its key. -/
theorem exists_perm_admits_iff [DecidableEq κ] {key : ι → κ} :
    (∃ l' : List ι, l'.Perm l ∧ ∀ k, Admits amount cap (l'.filter (key · = k))) ↔
      ∀ c ∈ l, ((leastTotal amount cap (l.filter (key · = key c)) c : α) : WithTop α) ≤
        cap c := by
  constructor
  · rintro ⟨l', hperm, hadmits⟩ c hc
    rw [← leastTotal_perm (hperm.filter _)]
    exact leastTotal_le (hadmits (key c)) (mem_filter.2 ⟨hperm.symm.subset hc, by simp⟩)
  · intro h
    classical
    have htotal : Std.Total (Precedes amount cap) := ⟨precedes_total⟩
    have htrans : IsTrans ι (Precedes amount cap) := ⟨fun _ _ _ => precedes_trans⟩
    have hperm := perm_insertionSort (Precedes amount cap) l
    refine ⟨l.insertionSort (Precedes amount cap), hperm, fun k => ?_⟩
    rw [admits_iff]
    intro before c after heq
    have hc : c ∈ (l.insertionSort (Precedes amount cap)).filter (key · = k) := by
      rw [heq]
      exact mem_append_right _ mem_cons_self
    obtain ⟨hmem, hkey⟩ := mem_filter.1 hc
    obtain rfl := of_decide_eq_true hkey
    refine le_trans (WithTop.coe_le_coe.2 ?_) (h c (hperm.subset hmem))
    rw [← leastTotal_perm (hperm.filter _), heq]
    refine running_le_leastTotal ?_
    rw [← heq]
    exact (pairwise_insertionSort _ _).filter _

end SomeOrder

end RunningTotals
