/-
# The classes of a union-find forest

A small library: what the operations of `Disjoint.UnionFind` do to the classes of the
forest.

The parent pointers of the elements generate an equivalence (`Same`), and two elements
are in one class exactly when they have the same root (`same_iff_root`); the root is the
least element of the class, so it depends on the classes only (`root_congr`).

* `same_find`: `find` keeps the classes, and returns the root (`find_eq_root`).
* `same_union`: `union` joins the classes of its two elements and nothing else.
* `same_unions`: the classes after a list of unions are those the pairs generate.
* `groups_eq`: the groups are the classes, each in order.
* `grows_foldl`: a loop of finds and unions only lets the classes grow (`Grows`).
-/
import DRCAgent.UnionFind

namespace Disjoint

open Function List Relation

universe u

variable {α : Type u} [LinearOrder α]

namespace UnionFind

/-- The equivalence that the parent pointers of the elements generate. -/
def Same (uf : UnionFind α) : α → α → Prop := EqvGen fun a b => a ∈ uf.ids ∧ uf.parent a = b

/-- The root above an element: as many steps as there are elements. -/
def root (uf : UnionFind α) (x : α) : α := uf.parent^[uf.ids.length] x

section Root

variable {uf uf' : UnionFind α} {x y : α}

/-- The walk upwards ends after as many steps as there are elements below. -/
theorem parent_iterate (h : uf.Closed) (n : ℕ) (hx : x ∈ uf.ids) (hn : (uf.below x).length ≤ n) :
    uf.parent (uf.parent^[n] x) = uf.parent^[n] x := by
  induction n generalizing x with
  | zero =>
    show uf.parent x = x
    by_contra hne
    have hlt : uf.parent x < x := lt_of_le_of_ne (uf.parent_le x) hne
    have hless := length_below_lt (h x hx) hlt
    omega
  | succ n ih =>
    rw [iterate_succ_apply]
    by_cases hroot : uf.parent x = x
    · rw [hroot, iterate_fixed hroot, hroot]
    · have hlt : uf.parent x < x := lt_of_le_of_ne (uf.parent_le x) hroot
      have hless := length_below_lt (h x hx) hlt
      exact ih (h x hx) (by omega)

theorem parent_root (h : uf.Closed) (hx : x ∈ uf.ids) : uf.parent (uf.root x) = uf.root x :=
  parent_iterate h _ hx filter_sublist.length_le

theorem root_of_parent_eq (hx : uf.parent x = x) : uf.root x = x := iterate_fixed hx _

/-- A parent has the root of its child. -/
theorem root_parent (h : uf.Closed) (hx : x ∈ uf.ids) : uf.root (uf.parent x) = uf.root x := by
  have hcomm : uf.root (uf.parent x) = uf.parent (uf.root x) := by
    rw [root, root, ← iterate_succ_apply, iterate_succ_apply']
  rw [hcomm, parent_root h hx]

theorem root_mem (h : uf.Closed) (hx : x ∈ uf.ids) : uf.root x ∈ uf.ids := by
  have hiterate : ∀ n : ℕ, ∀ y ∈ uf.ids, uf.parent^[n] y ∈ uf.ids := by
    intro n
    induction n with
    | zero => exact fun y hy => hy
    | succ n ih => exact fun y hy => ih _ (h y hy)
  exact hiterate _ x hx

theorem root_le (uf : UnionFind α) (x : α) : uf.root x ≤ x := by
  have hiterate : ∀ n : ℕ, uf.parent^[n] x ≤ x := by
    intro n
    induction n with
    | zero => exact le_rfl
    | succ n ih =>
      rw [iterate_succ_apply']
      exact (uf.parent_le _).trans ih
  exact hiterate _

/-- An element is in the class of its root. -/
theorem same_root (h : uf.Closed) (hx : x ∈ uf.ids) : uf.Same x (uf.root x) := by
  have hiterate : ∀ n : ℕ, ∀ y ∈ uf.ids, uf.Same y (uf.parent^[n] y) := by
    intro n
    induction n with
    | zero => exact fun y _ => .refl y
    | succ n ih => exact fun y hy => .trans _ _ _ (.rel _ _ ⟨hy, rfl⟩) (ih _ (h y hy))
  exact hiterate _ x hx

theorem Same.root_eq (h : uf.Closed) (hxy : uf.Same x y) : uf.root x = uf.root y := by
  induction hxy with
  | rel a b hab =>
    obtain ⟨ha, rfl⟩ := hab
    exact (root_parent h ha).symm
  | refl a => rfl
  | symm a b _ ih => exact ih.symm
  | trans a b c _ _ hab hbc => exact hab.trans hbc

/-- **One class is one root.** -/
theorem same_iff_root (h : uf.Closed) (hx : x ∈ uf.ids) (hy : y ∈ uf.ids) :
    uf.Same x y ↔ uf.root x = uf.root y := by
  constructor
  · exact Same.root_eq h
  · intro heq
    refine .trans _ _ _ (same_root h hx) ?_
    rw [heq]
    exact .symm _ _ (same_root h hy)

/-- The root is the least element of the class. -/
theorem root_le_of_same (h : uf.Closed) (hxy : uf.Same x y) : uf.root x ≤ y := by
  rw [hxy.root_eq h]
  exact uf.root_le y

/-- **The roots depend on the classes only.** -/
theorem root_congr (h : uf.Closed) (h' : uf'.Closed) (hids : uf'.ids = uf.ids)
    (hsame : ∀ a b, uf'.Same a b ↔ uf.Same a b) (hx : x ∈ uf.ids) : uf'.root x = uf.root x := by
  have hx' : x ∈ uf'.ids := hids ▸ hx
  apply le_antisymm
  · exact root_le_of_same h' ((hsame _ _).2 (same_root h hx))
  · exact root_le_of_same h ((hsame _ _).1 (same_root h' hx'))

end Root

/-! ## The operations -/

section Operations

variable {uf : UnionFind α} {item x y : α}

/-- The classes only grow where every pointer stays within a class. -/
theorem same_le {r : α → α → Prop} [IsEquiv α r]
    (h : ∀ a ∈ uf.ids, r a (uf.parent a)) {a b : α} (hab : uf.Same a b) : r a b := by
  refine EqvGen.eqvGen_le (fun c d hcd => ?_) a b hab
  obtain ⟨hc, rfl⟩ := hcd
  exact h c hc

instance (uf : UnionFind α) : IsEquiv α uf.Same := EqvGen.is_equivalence _ |>.isEquiv

/-- Halving a path keeps the classes. -/
theorem same_halve (h : uf.Closed) (hitem : item ∈ uf.ids) (a b : α) :
    (uf.halve item).Same a b ↔ uf.Same a b := by
  have hstep : ∀ c ∈ uf.ids, uf.Same c (uf.parent c) := fun c hc => .rel _ _ ⟨hc, rfl⟩
  have hstep' : ∀ c ∈ uf.ids, (uf.halve item).Same c ((uf.halve item).parent c) :=
    fun c hc => .rel _ _ ⟨hc, rfl⟩
  have hother : ∀ c, c ≠ item → (uf.halve item).parent c = uf.parent c :=
    fun c hc => update_of_ne hc ..
  constructor
  · refine same_le fun c hc => ?_
    by_cases hci : c = item
    · rw [hci, halve_parent_self]
      exact .trans _ _ _ (hstep item hitem) (hstep _ (h item hitem))
    · rw [hother c hci]
      exact hstep c hc
  · refine same_le fun c hc => ?_
    by_cases hci : c = item
    · rw [hci]
      by_cases hroot : uf.parent item = item
      · rw [hroot]
        exact .refl _
      · -- the old parent keeps its own pointer, to which the item now points as well
        have hparent := hstep' (uf.parent item) (h item hitem)
        rw [hother _ hroot] at hparent
        have hskip := hstep' item hitem
        rw [halve_parent_self] at hskip
        exact .trans _ _ _ hskip (.symm _ _ hparent)
    · have hkeep := hstep' c hc
      rwa [hother c hci] at hkeep

theorem same_findFuel (h : uf.Closed) (hitem : item ∈ uf.ids) (fuel : ℕ) :
    (∀ a b, (findFuel fuel uf item).2.Same a b ↔ uf.Same a b) ∧
      uf.Same item (findFuel fuel uf item).1 := by
  induction fuel generalizing uf item with
  | zero => exact ⟨fun _ _ => Iff.rfl, .refl _⟩
  | succ fuel ih =>
    rw [findFuel]
    split_ifs with hroot
    · exact ⟨fun _ _ => Iff.rfl, .refl _⟩
    · have hnext : (uf.halve item).parent item ∈ (uf.halve item).ids := h.halve item item hitem
      obtain ⟨hsame, hwalk⟩ := ih (h.halve item) hnext
      refine ⟨fun a b => (hsame a b).trans (same_halve h hitem a b), ?_⟩
      have hfirst : (uf.halve item).Same item ((uf.halve item).parent item) :=
        .rel _ _ ⟨hitem, rfl⟩
      exact (same_halve h hitem _ _).1 (.trans _ _ _ hfirst hwalk)

theorem Closed.find (h : uf.Closed) (hitem : item ∈ uf.ids) : (uf.find item).2.Closed :=
  (h.findFuel hitem).2

/-- **`find` keeps the classes.** -/
theorem same_find (h : uf.Closed) (hitem : item ∈ uf.ids) (a b : α) :
    (uf.find item).2.Same a b ↔ uf.Same a b := (same_findFuel h hitem _).1 a b

theorem root_find (h : uf.Closed) (hitem : item ∈ uf.ids) (hx : x ∈ uf.ids) :
    (uf.find item).2.root x = uf.root x :=
  root_congr h (h.find hitem) (find_ids uf item) (same_find h hitem) hx

/-- **`find` returns the root.** -/
theorem find_eq_root (h : uf.Closed) (hitem : item ∈ uf.ids) :
    (uf.find item).1 = uf.root item := by
  have hmem : (uf.find item).1 ∈ uf.ids := (h.findFuel hitem).1
  have hfixed : (uf.find item).2.root (uf.find item).1 = (uf.find item).1 :=
    root_of_parent_eq (find_isRoot h hitem)
  have hsame : uf.Same item (uf.find item).1 := (same_findFuel h hitem _).2
  rw [hsame.root_eq h, ← root_find h hitem hmem, hfixed]

/-- A root that gets a parent brings its class along. -/
theorem same_setParent {target : α} (hle : target ≤ item) (hitem : item ∈ uf.ids)
    (hroot : uf.parent item = item) (a b : α) :
    (uf.setParent item target hle).Same a b ↔
      EqvGen (fun c d => uf.Same c d ∨ c = item ∧ d = target) a b := by
  have hself : (uf.setParent item target hle).parent item = target := update_self ..
  have hother : ∀ c, c ≠ item → (uf.setParent item target hle).parent c = uf.parent c :=
    fun c hc => update_of_ne hc ..
  constructor
  · have : IsEquiv α (EqvGen fun c d => uf.Same c d ∨ c = item ∧ d = target) :=
      EqvGen.is_equivalence _ |>.isEquiv
    refine same_le fun c hc => ?_
    by_cases hci : c = item
    · rw [hci, hself]
      exact .rel _ _ (.inr ⟨rfl, rfl⟩)
    · rw [hother c hci]
      exact .rel _ _ (.inl (.rel _ _ ⟨hc, rfl⟩))
  · refine @EqvGen.eqvGen_le _ _ (uf.setParent item target hle).Same _ (fun c d hcd => ?_) a b
    rcases hcd with hcd | ⟨rfl, rfl⟩
    · refine same_le (fun e he => ?_) hcd
      by_cases hei : e = item
      · rw [hei, hroot]
        exact .refl _
      · have hkeep : (uf.setParent item target hle).Same e
            ((uf.setParent item target hle).parent e) := .rel _ _ ⟨he, rfl⟩
        rwa [hother e hei] at hkeep
    · exact .rel _ _ ⟨hitem, hself⟩

/-- The equivalence that a pair adds to an equivalence. -/
def Joined (r : α → α → Prop) (left right : α) : α → α → Prop :=
  EqvGen fun c d => r c d ∨ c = left ∧ d = right

instance (r : α → α → Prop) (left right : α) : IsEquiv α (Joined r left right) :=
  EqvGen.is_equivalence _ |>.isEquiv

omit [LinearOrder α] in
/-- Equivalent pairs add the same. -/
theorem joined_le {r r' : α → α → Prop} {left right left' right' : α}
    (hr : ∀ c d, r c d → r' c d) (hleft : r' left left') (hright : r' right' right) {a b : α}
    (h : Joined r left right a b) : Joined r' left' right' a b := by
  refine @EqvGen.eqvGen_le _ _ (Joined r' left' right') _ (fun c d hcd => ?_) a b h
  rcases hcd with hcd | ⟨rfl, rfl⟩
  · exact .rel _ _ (.inl (hr c d hcd))
  · have hpair : Joined r' left' right' left' right' := .rel _ _ (.inr ⟨rfl, rfl⟩)
    exact .trans _ _ _ (.rel _ _ (.inl hleft)) (.trans _ _ _ hpair (.rel _ _ (.inl hright)))

omit [LinearOrder α] in
theorem joined_comm {r : α → α → Prop} {left right a b : α} (h : Joined r left right a b) :
    Joined r right left a b := by
  refine @EqvGen.eqvGen_le _ _ (Joined r right left) _ (fun c d hcd => ?_) a b h
  rcases hcd with hcd | ⟨rfl, rfl⟩
  · exact .rel _ _ (.inl hcd)
  · exact .symm _ _ (.rel _ _ (.inr ⟨rfl, rfl⟩))

/-- **`union` joins the classes of its elements and nothing else.** -/
theorem same_union (h : uf.Closed) {left right : α} (hleft : left ∈ uf.ids)
    (hright : right ∈ uf.ids) (a b : α) :
    (uf.union left right).Same a b ↔ Joined uf.Same left right a b := by
  set uf₁ := (uf.find left).2 with huf₁
  set uf₂ := (uf₁.find right).2 with huf₂
  have hclosed₁ : uf₁.Closed := h.find hleft
  have hids₁ : uf₁.ids = uf.ids := find_ids uf left
  have hright₁ : right ∈ uf₁.ids := hids₁.symm ▸ hright
  have hclosed₂ : uf₂.Closed := hclosed₁.find hright₁
  have hids₂ : uf₂.ids = uf.ids := (find_ids uf₁ right).trans hids₁
  have hsame : ∀ c d, uf₂.Same c d ↔ uf.Same c d :=
    fun c d => (same_find hclosed₁ hright₁ c d).trans (same_find h hleft c d)
  have hroot : ∀ x ∈ uf.ids, uf₂.root x = uf.root x :=
    fun x hx => root_congr h hclosed₂ hids₂ hsame hx
  have hleftRoot : (uf.find left).1 = uf₂.root left := by
    rw [hroot left hleft, find_eq_root h hleft]
  have hrightRoot : (uf₁.find right).1 = uf₂.root right := by
    rw [hroot right hright, find_eq_root hclosed₁ hright₁, huf₁, root_find h hleft hright]
  have hleft₂ : left ∈ uf₂.ids := hids₂.symm ▸ hleft
  have hright₂ : right ∈ uf₂.ids := hids₂.symm ▸ hright
  have hl := same_root hclosed₂ hleft₂
  have hr := same_root hclosed₂ hright₂
  have hunion : (uf.union left right) =
      if uf₂.root left = uf₂.root right then uf₂
      else if hlt : uf₂.root right < uf₂.root left then
        uf₂.setParent (uf₂.root left) (uf₂.root right) hlt.le
      else uf₂.setParent (uf₂.root right) (uf₂.root left) (not_lt.1 hlt) := by
    rw [← hleftRoot, ← hrightRoot]
    rfl
  rw [hunion]
  -- both ways between the roots and the elements they are the roots of
  have hto : ∀ {c d}, Joined uf₂.Same (uf₂.root left) (uf₂.root right) c d →
      Joined uf.Same left right c d :=
    fun hcd => joined_le (fun c d => (hsame c d).1) ((hsame _ _).1 (.symm _ _ hl))
      ((hsame _ _).1 hr) hcd
  have hfrom : ∀ {c d}, Joined uf.Same left right c d →
      Joined uf₂.Same (uf₂.root left) (uf₂.root right) c d :=
    fun hcd => joined_le (fun c d => (hsame c d).2) hl (.symm _ _ hr) hcd
  split_ifs with heq hlt
  · constructor
    · exact fun hab => .rel _ _ (.inl ((hsame a b).1 hab))
    · intro hab
      refine @EqvGen.eqvGen_le _ _ uf₂.Same _ (fun c d hcd => ?_) a b (hfrom hab)
      rcases hcd with hcd | ⟨rfl, rfl⟩
      · exact hcd
      · rw [heq]
        exact .refl _
  · rw [same_setParent hlt.le (root_mem hclosed₂ hleft₂) (parent_root hclosed₂ hleft₂)]
    exact ⟨fun hab => hto hab, fun hab => hfrom hab⟩
  · rw [same_setParent (not_lt.1 hlt) (root_mem hclosed₂ hright₂) (parent_root hclosed₂ hright₂)]
    exact ⟨fun hab => hto (joined_comm hab), fun hab => joined_comm (hfrom hab)⟩

/-- The unions of the pairs, in order. -/
def unions (uf : UnionFind α) (pairs : List (α × α)) : UnionFind α :=
  pairs.foldl (fun uf pair => uf.union pair.1 pair.2) uf

/-- The pairs are pairs of elements. -/
def Within (ids : List α) (pairs : List (α × α)) : Prop :=
  ∀ pair ∈ pairs, pair.1 ∈ ids ∧ pair.2 ∈ ids

theorem unions_ids (uf : UnionFind α) (pairs : List (α × α)) : (uf.unions pairs).ids = uf.ids := by
  induction pairs generalizing uf with
  | nil => rfl
  | cons pair pairs ih =>
    show ((uf.union pair.1 pair.2).unions pairs).ids = uf.ids
    rw [ih, union_ids]

theorem Closed.unions {pairs : List (α × α)} (h : uf.Closed) (hpairs : Within uf.ids pairs) :
    (uf.unions pairs).Closed := by
  induction pairs generalizing uf with
  | nil => exact h
  | cons pair pairs ih =>
    obtain ⟨hleft, hright⟩ := hpairs pair mem_cons_self
    refine ih (h.union hleft hright) fun p hp => ?_
    rw [union_ids]
    exact hpairs p (mem_cons_of_mem _ hp)

/-- **The classes after the unions are those that the pairs generate.** -/
theorem same_unions {pairs : List (α × α)} (h : uf.Closed) (hpairs : Within uf.ids pairs)
    (a b : α) :
    (uf.unions pairs).Same a b ↔ EqvGen (fun c d => uf.Same c d ∨ (c, d) ∈ pairs) a b := by
  induction pairs generalizing uf with
  | nil =>
    constructor
    · exact fun hab => .rel _ _ (.inl hab)
    · refine @EqvGen.eqvGen_le _ _ uf.Same _ (fun c d hcd => ?_) a b
      exact hcd.resolve_right not_mem_nil
  | cons pair pairs ih =>
    obtain ⟨hleft, hright⟩ := hpairs pair mem_cons_self
    have hrest : Within (uf.union pair.1 pair.2).ids pairs := by
      intro p hp
      rw [union_ids]
      exact hpairs p (mem_cons_of_mem _ hp)
    show ((uf.union pair.1 pair.2).unions pairs).Same a b ↔ _
    rw [ih (h.union hleft hright) hrest]
    have hequiv : IsEquiv α (EqvGen fun c d => uf.Same c d ∨ (c, d) ∈ pair :: pairs) :=
      EqvGen.is_equivalence _ |>.isEquiv
    have hequiv' : IsEquiv α (EqvGen fun c d =>
        (uf.union pair.1 pair.2).Same c d ∨ (c, d) ∈ pairs) :=
      EqvGen.is_equivalence _ |>.isEquiv
    constructor
    · refine EqvGen.eqvGen_le (fun c d hcd => ?_) a b
      rcases hcd with hcd | hcd
      · refine EqvGen.eqvGen_le (fun e f hef => ?_) c d ((same_union h hleft hright c d).1 hcd)
        rcases hef with hef | ⟨rfl, rfl⟩
        · exact .rel _ _ (.inl hef)
        · exact .rel _ _ (.inr mem_cons_self)
      · exact .rel _ _ (.inr (mem_cons_of_mem _ hcd))
    · refine EqvGen.eqvGen_le (fun c d hcd => ?_) a b
      rcases hcd with hcd | hcd
      · exact .rel _ _ (.inl ((same_union h hleft hright c d).2 (.rel _ _ (.inl hcd))))
      · rcases mem_cons.1 hcd with rfl | hcd
        · exact .rel _ _ (.inl ((same_union h hleft hright c d).2 (.rel _ _ (.inr ⟨rfl, rfl⟩))))
        · exact .rel _ _ (.inr hcd)

/-- From single elements, the pairs alone generate the classes. -/
theorem same_unions_ofIds {ids : List α} {pairs : List (α × α)} (hpairs : Within ids pairs)
    (a b : α) : ((ofIds ids).unions pairs).Same a b ↔ EqvGen (fun c d => (c, d) ∈ pairs) a b := by
  rw [same_unions (closed_ofIds ids) hpairs]
  have hequiv : IsEquiv α (EqvGen fun c d => (c, d) ∈ pairs) := EqvGen.is_equivalence _ |>.isEquiv
  constructor
  · refine EqvGen.eqvGen_le (fun c d hcd => ?_) a b
    rcases hcd with hcd | hcd
    · have hbase : (ofIds ids).Same c d := hcd
      exact same_le (fun e _ => .refl e) hbase
    · exact .rel _ _ hcd
  · exact EqvGen.mono (fun c d hcd => .inr hcd) a b

/-! ## The groups -/

/-- **The groups are the classes**: the elements in order, collected by their roots. -/
theorem groups_eq (h : uf.Closed) : uf.groups =
    (Dicts.collect ((uf.ids.insertionSort (· ≤ ·)).map fun x => (uf.root x, x))).map (·.2) := by
  have hfold : ∀ (items : List α) (uf' : UnionFind α) (dict : List (α × List α)),
      uf'.Closed → uf'.ids = uf.ids → (∀ x ∈ uf.ids, uf'.root x = uf.root x) →
      (∀ x ∈ items, x ∈ uf.ids) →
        (items.foldl collect (uf', dict)).2 = (items.map fun x => (uf.root x, x)).foldl
          (fun dict entry => Dicts.append entry.1 entry.2 dict) dict := by
    intro items
    induction items with
    | nil => exact fun _ _ _ _ _ _ => rfl
    | cons x items ih =>
      intro uf' dict hclosed hids hroots hitems
      have hx : x ∈ uf.ids := hitems x mem_cons_self
      have hx' : x ∈ uf'.ids := hids.symm ▸ hx
      have hcollect : collect (uf', dict) x =
          ((uf'.find x).2, Dicts.append (uf.root x) x dict) := by
        rw [collect, find_eq_root hclosed hx', hroots x hx]
      rw [foldl_cons, hcollect]
      refine ih _ _ (hclosed.find hx') ((find_ids uf' x).trans hids) (fun y hy => ?_)
        fun y hy => hitems y (mem_cons_of_mem _ hy)
      rw [root_find hclosed hx' (hids.symm ▸ hy), hroots y hy]
  rw [groups, Dicts.collect]
  congr 1
  exact hfold _ uf [] h rfl (fun _ _ => rfl) fun x hx => (mem_insertionSort _).1 hx

/-- The group of an element is its class, in order. -/
theorem group_of_mem (h : uf.Closed) {group : List α} (hgroup : group ∈ uf.groups)
    (hx : x ∈ group) :
    group = (uf.ids.insertionSort (· ≤ ·)).filter (fun y => uf.root y = uf.root x) := by
  rw [groups_eq h] at hgroup
  obtain ⟨entry, hentry, rfl⟩ := mem_map.1 hgroup
  have hvalues : entry.2 = (uf.ids.insertionSort (· ≤ ·)).filter fun y => uf.root y = entry.1 := by
    rw [Dicts.values_of_mem_collect hentry, filter_map, List.map_map]
    exact map_id'' (fun _ => rfl) _
  have hroot : uf.root x = entry.1 := by
    rw [hvalues, mem_filter, decide_eq_true_eq] at hx
    exact hx.2
  rw [hroot]
  exact hvalues

/-- Every element is in a group. -/
theorem exists_group (hx : x ∈ uf.ids) : ∃ group ∈ uf.groups, x ∈ group := by
  have hmem : x ∈ uf.groups.flatten := (groups_perm uf).mem_iff.2 hx
  exact mem_flatten.1 hmem

end Operations

/-! ## Equal classes -/

section Alike

variable {uf uf' : UnionFind α} {item x : α}

/-- A forest with the same elements and the same classes. -/
structure Alike (uf uf' : UnionFind α) : Prop where
  ids : uf'.ids = uf.ids
  closed : uf'.Closed
  same : ∀ a b, uf'.Same a b ↔ uf.Same a b

theorem Alike.refl (h : uf.Closed) : uf.Alike uf := ⟨rfl, h, fun _ _ => Iff.rfl⟩

theorem Alike.trans {uf'' : UnionFind α} (h : uf.Alike uf') (h' : uf'.Alike uf'') :
    uf.Alike uf'' :=
  ⟨h'.ids.trans h.ids, h'.closed, fun a b => (h'.same a b).trans (h.same a b)⟩

theorem Alike.mem (h : uf.Alike uf') (hitem : item ∈ uf.ids) : item ∈ uf'.ids := by
  rw [h.ids]
  exact hitem

theorem Alike.find (h : uf.Alike uf') (hitem : item ∈ uf.ids) : uf.Alike (uf'.find item).2 :=
  ⟨(find_ids uf' item).trans h.ids, h.closed.find (h.mem hitem),
    fun a b => (same_find h.closed (h.mem hitem) a b).trans (h.same a b)⟩

theorem Alike.root (h : uf.Alike uf') (hclosed : uf.Closed) (hx : x ∈ uf.ids) :
    uf'.root x = uf.root x :=
  root_congr hclosed h.closed h.ids h.same hx

theorem Alike.find_eq (h : uf.Alike uf') (hclosed : uf.Closed) (hitem : item ∈ uf.ids) :
    (uf'.find item).1 = uf.root item := by
  rw [find_eq_root h.closed (h.mem hitem), h.root hclosed hitem]

/-- Unions of the same elements give the same classes. -/
theorem Alike.union (h : uf.Alike uf') (hclosed : uf.Closed) {left right : α}
    (hleft : left ∈ uf.ids) (hright : right ∈ uf.ids) :
    (uf.union left right).Alike (uf'.union left right) := by
  refine ⟨?_, h.closed.union (h.mem hleft) (h.mem hright), fun a b => ?_⟩
  · rw [union_ids, union_ids, h.ids]
  · rw [same_union h.closed (h.mem hleft) (h.mem hright), same_union hclosed hleft hright]
    constructor
    · exact joined_le (fun c d => (h.same c d).1) (.refl _) (.refl _)
    · exact joined_le (fun c d => (h.same c d).2) (.refl _) (.refl _)

/-- The loop of `groups` keeps the classes. -/
theorem Alike.collect (h : uf.Alike uf') {items : List α} (hitems : ∀ x ∈ items, x ∈ uf.ids)
    (dict : List (α × List α)) : uf.Alike (items.foldl collect (uf', dict)).1 := by
  induction items generalizing uf' dict with
  | nil => exact h
  | cons x items ih =>
    exact ih (h.find (hitems x mem_cons_self))
      (fun y hy => hitems y (mem_cons_of_mem x hy)) _

/-- The groups depend on the classes only. -/
theorem Alike.groups_eq (h : uf.Alike uf') (hclosed : uf.Closed) : uf'.groups = uf.groups := by
  rw [UnionFind.groups_eq h.closed, UnionFind.groups_eq hclosed, h.ids]
  congr 2
  refine map_congr_left fun x hx => ?_
  rw [h.root hclosed ((mem_insertionSort _).1 hx)]

end Alike

/-! ## Growing classes -/

section Growing

variable {uf uf' uf'' : UnionFind α} {item left right : α}

/-- A forest with the same elements whose classes contain those of the first. -/
structure Grows (uf uf' : UnionFind α) : Prop where
  ids : uf'.ids = uf.ids
  closed : uf'.Closed
  same : ∀ a b, uf.Same a b → uf'.Same a b

theorem Grows.refl (h : uf.Closed) : uf.Grows uf := ⟨rfl, h, fun _ _ hab => hab⟩

theorem Grows.trans (h : uf.Grows uf') (h' : uf'.Grows uf'') : uf.Grows uf'' :=
  ⟨h'.ids.trans h.ids, h'.closed, fun a b hab => h'.same a b (h.same a b hab)⟩

theorem Grows.mem (h : uf.Grows uf') (hitem : item ∈ uf.ids) : item ∈ uf'.ids := by
  rw [h.ids]
  exact hitem

theorem grows_find (h : uf.Closed) (hitem : item ∈ uf.ids) : uf.Grows (uf.find item).2 :=
  ⟨find_ids uf item, h.find hitem, fun a b hab => (same_find h hitem a b).2 hab⟩

theorem grows_union (h : uf.Closed) (hleft : left ∈ uf.ids) (hright : right ∈ uf.ids) :
    uf.Grows (uf.union left right) :=
  ⟨union_ids uf left right, h.union hleft hright,
    fun a b hab => (same_union h hleft hright a b).2 (.rel _ _ (.inl hab))⟩

/-- A union puts its elements in one class. -/
theorem union_same (h : uf.Closed) (hleft : left ∈ uf.ids) (hright : right ∈ uf.ids) :
    (uf.union left right).Same left right :=
  (same_union h hleft hright left right).2 (.rel _ _ (.inr ⟨rfl, rfl⟩))

/-- The elements of the classes that a union of `left` and `right` joins. -/
def InEither (uf : UnionFind α) (left right x : α) : Prop :=
  uf.root x = uf.root left ∨ uf.root x = uf.root right

/-- **The roots after a union**: two elements have one root if they had one, or if the
classes of both were joined. -/
theorem root_union_iff (h : uf.Closed) (hleft : left ∈ uf.ids) (hright : right ∈ uf.ids) {x y : α}
    (hx : x ∈ uf.ids) (hy : y ∈ uf.ids) :
    (uf.union left right).root x = (uf.union left right).root y ↔
      uf.root x = uf.root y ∨ uf.InEither left right x ∧ uf.InEither left right y := by
  have hclosed : (uf.union left right).Closed := h.union hleft hright
  have hmem : ∀ z ∈ uf.ids, z ∈ (uf.union left right).ids := fun z hz => by rwa [union_ids]
  rw [← same_iff_root hclosed (hmem x hx) (hmem y hy), same_union h hleft hright]
  constructor
  · have hequiv : IsEquiv α fun c d =>
        uf.root c = uf.root d ∨ uf.InEither left right c ∧ uf.InEither left right d := {
      refl := fun c => .inl rfl
      symm := fun c d hcd => hcd.imp Eq.symm And.symm
      trans := by
        rintro c d e (hcd | ⟨hc, hd⟩) (hde | ⟨hd', he⟩)
        · exact .inl (hcd.trans hde)
        · refine .inr ⟨?_, he⟩
          rwa [InEither, hcd]
        · refine .inr ⟨hc, ?_⟩
          rwa [InEither, ← hde]
        · exact .inr ⟨hc, he⟩ }
    refine @EqvGen.eqvGen_le _ _ _ hequiv (fun c d hcd => ?_) x y
    rcases hcd with hcd | ⟨rfl, rfl⟩
    · exact .inl (hcd.root_eq h)
    · exact .inr ⟨.inl rfl, .inr rfl⟩
  · have hin : ∀ z ∈ uf.ids, uf.InEither left right z → Joined uf.Same left right left z := by
      rintro z hz (hroot | hroot)
      · exact .rel _ _ (.inl ((same_iff_root h hleft hz).2 hroot.symm))
      · exact .trans _ _ _ (.rel _ _ (.inr ⟨rfl, rfl⟩))
          (.rel _ _ (.inl ((same_iff_root h hright hz).2 hroot.symm)))
    rintro (hroot | ⟨hinx, hiny⟩)
    · exact .rel _ _ (.inl ((same_iff_root h hx hy).2 hroot))
    · exact .trans _ _ _ (.symm _ _ (hin x hx hinx)) (hin y hy hiny)

/-- A loop whose turns let the classes of a forest grow lets them grow. -/
theorem grows_foldl {σ β : Type*} {f : σ → β → σ} (forest : σ → UnionFind α) {ids : List α}
    {items : List β}
    (hstep : ∀ s, ∀ b ∈ items, (forest s).Closed → (forest s).ids = ids →
      (forest s).Grows (forest (f s b))) (s : σ) (hclosed : (forest s).Closed)
    (hids : (forest s).ids = ids) : (forest s).Grows (forest (items.foldl f s)) := by
  induction items generalizing s with
  | nil => exact .refl hclosed
  | cons b items ih =>
    have hfirst := hstep s b mem_cons_self hclosed hids
    have hrest := ih fun s c hc => hstep s c (mem_cons_of_mem b hc)
    refine hfirst.trans (hrest _ hfirst.closed ?_)
    rw [hfirst.ids, hids]

/-- Two elements of one class are in one group. -/
theorem exists_group_of_same (h : uf.Closed) {x y : α} (hx : x ∈ uf.ids) (hy : y ∈ uf.ids)
    (hxy : uf.Same x y) : ∃ group ∈ uf.groups, x ∈ group ∧ y ∈ group := by
  obtain ⟨group, hgroup, hxmem⟩ := exists_group hx
  refine ⟨group, hgroup, hxmem, ?_⟩
  rw [group_of_mem h hgroup hxmem, mem_filter, mem_insertionSort, decide_eq_true_eq]
  exact ⟨hy, (hxy.root_eq h).symm⟩

end Growing

end UnionFind

end Disjoint
