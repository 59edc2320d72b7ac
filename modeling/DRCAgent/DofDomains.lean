/-
# The common domain of repair parameters

`intersect_dof_domains` (src/drc_agent/repair_kernel/executable.py) clips the allowed
intervals of every parameter to its domain and to the shared grid, intersects them with what
the parameters before have left, and merges the result; it stops once nothing is left.

What it returns are the maximal runs of the points that every parameter allows
(`intersectDofDomains_exact`), so the order of the parameters and of their intervals does not
matter.
-/
import DRCAgent.GridRuns

namespace DRCAgent.Dofs

open GridRuns List

/-! ## The source -/

/-- `RepairDOF`: the fields that the intersection reads, with what the schema checks of
them. -/
structure RepairDOF where
  domainMinDbu : ℤ
  domainMaxDbu : ℤ
  allowedIntervals : List (ℤ × ℤ)
  manufacturingGridDbu : ℤ
  orderedDomain : domainMinDbu ≤ domainMaxDbu

/-- `lcm(*(item.manufacturing_grid_dbu for item in dofs))` -/
def sharedGrid (dofs : List RepairDOF) : ℤ :=
  dofs.foldr (fun dof grid => Int.lcm dof.manufacturingGridDbu grid) 1

/-- The intervals of a parameter, clipped to its domain and rounded inward to the grid. -/
def clipped (grid : ℤ) (dof : RepairDOF) : List (ℤ × ℤ) :=
  (dof.allowedIntervals.map fun interval =>
    (alignUp grid (max interval.1 dof.domainMinDbu),
      alignDown grid (min interval.2 dof.domainMaxDbu))).filter
    fun interval => interval.1 ≤ interval.2

/-- One turn of the loop: what is left with one parameter more. -/
def narrow (grid : ℤ) (intersection : Option (List (ℤ × ℤ))) (dof : RepairDOF) :
    List (ℤ × ℤ) :=
  merge grid (intersection.elim (clipped grid dof) fun intersection =>
    meet intersection (clipped grid dof))

/-- The loop: it ends early where nothing is left. -/
def intersectLoop (grid : ℤ) : Option (List (ℤ × ℤ)) → List RepairDOF →
    Option (List (ℤ × ℤ))
  | intersection, [] => intersection
  | intersection, dof :: rest =>
    if narrow grid intersection dof = [] then some []
    else intersectLoop grid (some (narrow grid intersection dof)) rest

/-- `intersect_dof_domains` -/
def intersectDofDomains (dofs : List RepairDOF) : List (ℤ × ℤ) × ℤ :=
  if dofs = [] then ([], 1)
  else ((intersectLoop (sharedGrid dofs) none dofs).getD [], sharedGrid dofs)

/-! ## The shared grid -/

theorem sharedGrid_dvd_iff {dofs : List RepairDOF} {x : ℤ} :
    sharedGrid dofs ∣ x ↔ ∀ dof ∈ dofs, dof.manufacturingGridDbu ∣ x := by
  induction dofs with
  | nil => simp [sharedGrid]
  | cons dof rest ih =>
    rw [forall_mem_cons, ← ih]
    show ((Int.lcm dof.manufacturingGridDbu (sharedGrid rest) : ℕ) : ℤ) ∣ x ↔ _
    constructor
    · intro h
      exact ⟨(Int.dvd_lcm_left _ _).trans h, (Int.dvd_lcm_right _ _).trans h⟩
    · rintro ⟨hdof, hrest⟩
      exact Int.coe_lcm_dvd hdof hrest

theorem sharedGrid_pos {dofs : List RepairDOF}
    (h : ∀ dof ∈ dofs, 0 < dof.manufacturingGridDbu) : 0 < sharedGrid dofs := by
  induction dofs with
  | nil => decide
  | cons dof rest ih =>
    obtain ⟨hdof, hrest⟩ := forall_mem_cons.1 h
    show (0 : ℤ) < (Int.lcm dof.manufacturingGridDbu (sharedGrid rest) : ℕ)
    have hlcm := Int.lcm_pos hdof.ne' (ih hrest).ne'
    omega

/-! ## One parameter -/

/-- A value that the parameter allows, up to its grid. -/
def RepairDOF.Allows (dof : RepairDOF) (x : ℤ) : Prop :=
  (dof.domainMinDbu ≤ x ∧ x ≤ dof.domainMaxDbu) ∧ Covers dof.allowedIntervals x

section Narrow

variable {grid : ℤ} {dof : RepairDOF}

theorem mem_clipped {interval : ℤ × ℤ} :
    interval ∈ clipped grid dof ↔ ∃ allowed ∈ dof.allowedIntervals,
      (alignUp grid (max allowed.1 dof.domainMinDbu),
        alignDown grid (min allowed.2 dof.domainMaxDbu)) = interval ∧
        interval.1 ≤ interval.2 := by
  rw [clipped, mem_filter, mem_map, decide_eq_true_eq]
  constructor
  · rintro ⟨⟨allowed, hmem, heq⟩, hle⟩
    exact ⟨allowed, hmem, heq, hle⟩
  · rintro ⟨allowed, hmem, heq, hle⟩
    exact ⟨⟨allowed, hmem, heq⟩, hle⟩

theorem aligned_clipped : ∀ interval ∈ clipped grid dof, Aligned grid interval := by
  intro interval hmem
  obtain ⟨allowed, -, rfl, hle⟩ := mem_clipped.1 hmem
  exact ⟨dvd_alignUp _, dvd_alignDown _, hle⟩

/-- Rounding inward and clipping lose no point of the grid and add none. -/
theorem covers_clipped (hgrid : 0 < grid) {x : ℤ} (hx : grid ∣ x) :
    Covers (clipped grid dof) x ↔ dof.Allows x := by
  constructor
  · rintro ⟨interval, hmem, hlow, hhigh⟩
    obtain ⟨allowed, hallowed, rfl, -⟩ := mem_clipped.1 hmem
    have hlows := max_le_iff.1 ((alignUp_le_iff hgrid hx _).1 hlow)
    have hhighs := le_min_iff.1 ((le_alignDown_iff hgrid hx _).1 hhigh)
    exact ⟨⟨hlows.2, hhighs.2⟩, allowed, hallowed, hlows.1, hhighs.1⟩
  · rintro ⟨⟨hmin, hmax⟩, allowed, hallowed, hlow, hhigh⟩
    have hup := (alignUp_le_iff hgrid hx _).2 (max_le hlow hmin)
    have hdown := (le_alignDown_iff hgrid hx _).2 (le_min hhigh hmax)
    exact ⟨_, mem_clipped.2 ⟨allowed, hallowed, rfl, hup.trans hdown⟩, hup, hdown⟩

/-- What has been left so far covers the point; at first everything is left. -/
def Leaves (intersection : Option (List (ℤ × ℤ))) (x : ℤ) : Prop :=
  ∀ intervals ∈ intersection, Covers intervals x

theorem aligned_of_mem_none (grid : ℤ) :
    ∀ intervals ∈ (none : Option (List (ℤ × ℤ))), ∀ interval ∈ intervals,
      Aligned grid interval := by
  intro intervals hmem
  cases hmem

variable {intersection : Option (List (ℤ × ℤ))}

theorem aligned_narrowed (h : ∀ intervals ∈ intersection, ∀ interval ∈ intervals,
    Aligned grid interval) :
    ∀ interval ∈ intersection.elim (clipped grid dof) fun intersection =>
      meet intersection (clipped grid dof), Aligned grid interval := by
  cases intersection with
  | none => exact aligned_clipped
  | some intervals => exact aligned_meet (h intervals rfl) aligned_clipped

/-- **One turn**: what is left are runs, of the points that were left and that the parameter
allows. -/
theorem narrow_spec (dof : RepairDOF) (hgrid : 0 < grid) (h : ∀ intervals ∈ intersection,
    ∀ interval ∈ intervals, Aligned grid interval) :
    Runs grid (narrow grid intersection dof) ∧ ∀ x, grid ∣ x →
      (Covers (narrow grid intersection dof) x ↔ Leaves intersection x ∧ dof.Allows x) := by
  refine ⟨runs_merge (aligned_narrowed h), fun x hx => ?_⟩
  rw [narrow, covers_merge (aligned_narrowed h) hx, ← covers_clipped hgrid hx]
  cases intersection with
  | none => simp [Leaves]
  | some intervals => simp [Leaves, covers_meet]

/-- **The loop.** -/
theorem intersectLoop_spec (dof : RepairDOF) (rest : List RepairDOF) (hgrid : 0 < grid)
    (h : ∀ intervals ∈ intersection, ∀ interval ∈ intervals, Aligned grid interval) :
    ∃ runs, intersectLoop grid intersection (dof :: rest) = some runs ∧ Runs grid runs ∧
      ∀ x, grid ∣ x →
        (Covers runs x ↔ Leaves intersection x ∧ ∀ other ∈ dof :: rest, other.Allows x) := by
  induction rest generalizing intersection dof with
  | nil =>
    obtain ⟨hruns, hcovers⟩ := narrow_spec dof hgrid h
    refine ⟨narrow grid intersection dof, ?_, hruns, fun x hx => ?_⟩
    · rw [intersectLoop, intersectLoop]
      split_ifs with hempty
      · rw [hempty]
      · rfl
    · rw [hcovers x hx]
      simp
  | cons next rest ih =>
    obtain ⟨hruns, hcovers⟩ := narrow_spec dof hgrid h
    rw [intersectLoop]
    split_ifs with hempty
    · -- nothing is left, so no point is allowed by all
      refine ⟨[], rfl, hempty ▸ hruns, fun x hx => ?_⟩
      rw [hempty] at hcovers
      refine ⟨fun hcovered => absurd hcovered (covers_nil x), ?_⟩
      rintro ⟨hleft, hall⟩
      exact (hcovers x hx).2 ⟨hleft, hall dof (mem_cons_self ..)⟩
    · -- the loop goes on with what is left
      obtain ⟨runs, hloop, hruns', hcovers'⟩ := ih next
        (fun intervals hmem => Option.mem_some.1 hmem ▸ hruns.aligned)
      refine ⟨runs, hloop, hruns', fun x hx => ?_⟩
      have hleft : Leaves (some (narrow grid intersection dof)) x ↔
          Leaves intersection x ∧ dof.Allows x := by
        simp only [Leaves, Option.mem_some, forall_eq', hcovers x hx]
      rw [hcovers' x hx, hleft, and_assoc]
      simp only [forall_mem_cons]

end Narrow

/-! ## The result -/

/-- The values that every parameter allows. -/
def commonPoints (dofs : List RepairDOF) : Set ℤ :=
  {x | ∀ dof ∈ dofs, dof.manufacturingGridDbu ∣ x ∧ dof.Allows x}

/-- The same parameter, its intervals in any order. -/
structure SameDomain (first second : RepairDOF) : Prop where
  domainMin : first.domainMinDbu = second.domainMinDbu
  domainMax : first.domainMaxDbu = second.domainMaxDbu
  grid : first.manufacturingGridDbu = second.manufacturingGridDbu
  intervals : first.allowedIntervals.Perm second.allowedIntervals

/-- The same parameters, they and their intervals in any order. -/
def Reordered (dofs dofs' : List RepairDOF) : Prop :=
  ∃ permuted, dofs.Perm permuted ∧ List.Forall₂ SameDomain permuted dofs'

/-- What is returned are runs, of the common points. -/
theorem intersectDofDomains_spec {dofs : List RepairDOF} (hne : dofs ≠ [])
    (hgrids : ∀ dof ∈ dofs, 0 < dof.manufacturingGridDbu) :
    (intersectDofDomains dofs).2 = sharedGrid dofs ∧
      Runs (sharedGrid dofs) (intersectDofDomains dofs).1 ∧
      points (sharedGrid dofs) (intersectDofDomains dofs).1 = commonPoints dofs := by
  have hgrid := sharedGrid_pos hgrids
  cases dofs with
  | nil => exact absurd rfl hne
  | cons dof rest =>
    obtain ⟨runs, hloop, hruns, hcovers⟩ := intersectLoop_spec dof rest hgrid
      (aligned_of_mem_none _)
    have hresult : intersectDofDomains (dof :: rest) = (runs, sharedGrid (dof :: rest)) := by
      rw [intersectDofDomains, if_neg hne, hloop, Option.getD_some]
    rw [hresult]
    refine ⟨rfl, hruns, Set.ext fun x => ?_⟩
    constructor
    · rintro ⟨hx, hcovered⟩ other hother
      have hall := ((hcovers x hx).1 hcovered).2
      exact ⟨sharedGrid_dvd_iff.1 hx other hother, hall other hother⟩
    · intro hcommon
      have hx := sharedGrid_dvd_iff.2 fun other hother => (hcommon other hother).1
      refine ⟨hx, (hcovers x hx).2 ⟨?_, fun other hother => (hcommon other hother).2⟩⟩
      intro intervals hmem
      cases hmem

section Reordered

variable {dofs dofs' : List RepairDOF}

/-- Related lists have related members. -/
theorem exists_of_forall₂ {α β : Type} {R : α → β → Prop} {first : List α} {second : List β}
    (h : List.Forall₂ R first second) :
    (∀ a ∈ first, ∃ c ∈ second, R a c) ∧ ∀ c ∈ second, ∃ a ∈ first, R a c := by
  induction h with
  | nil => simp
  | cons hhead _ ih =>
    obtain ⟨hforward, hbackward⟩ := ih
    refine ⟨forall_mem_cons.2 ⟨⟨_, mem_cons_self .., hhead⟩, fun a ha => ?_⟩,
      forall_mem_cons.2 ⟨⟨_, mem_cons_self .., hhead⟩, fun c hc => ?_⟩⟩
    · obtain ⟨c, hc, hrelated⟩ := hforward a ha
      exact ⟨c, mem_cons_of_mem _ hc, hrelated⟩
    · obtain ⟨a, ha, hrelated⟩ := hbackward c hc
      exact ⟨a, mem_cons_of_mem _ ha, hrelated⟩

theorem Reordered.exists_same (h : Reordered dofs dofs') :
    (∀ dof ∈ dofs, ∃ other ∈ dofs', SameDomain dof other) ∧
      ∀ other ∈ dofs', ∃ dof ∈ dofs, SameDomain dof other := by
  obtain ⟨permuted, hperm, hsame⟩ := h
  obtain ⟨hforward, hbackward⟩ := exists_of_forall₂ hsame
  refine ⟨fun dof hdof => hforward dof (hperm.subset hdof), fun other hother => ?_⟩
  obtain ⟨dof, hdof, hsameDof⟩ := hbackward other hother
  exact ⟨dof, hperm.symm.subset hdof, hsameDof⟩

theorem SameDomain.allows_iff {first second : RepairDOF} (h : SameDomain first second)
    (x : ℤ) : first.Allows x ↔ second.Allows x := by
  rw [RepairDOF.Allows, RepairDOF.Allows, h.domainMin, h.domainMax, covers_perm h.intervals x]

/-- Another order has the same common points. -/
theorem Reordered.commonPoints_eq (h : Reordered dofs dofs') :
    commonPoints dofs = commonPoints dofs' := by
  obtain ⟨hforward, hbackward⟩ := h.exists_same
  ext x
  constructor
  · intro hcommon other hother
    obtain ⟨dof, hdof, hsame⟩ := hbackward other hother
    obtain ⟨hdvd, hallows⟩ := hcommon dof hdof
    exact ⟨hsame.grid ▸ hdvd, (hsame.allows_iff x).1 hallows⟩
  · intro hcommon dof hdof
    obtain ⟨other, hother, hsame⟩ := hforward dof hdof
    obtain ⟨hdvd, hallows⟩ := hcommon other hother
    exact ⟨hsame.grid ▸ hdvd, (hsame.allows_iff x).2 hallows⟩

/-- Another order has the same shared grid. -/
theorem Reordered.sharedGrid_eq (h : Reordered dofs dofs')
    (hgrids : ∀ dof ∈ dofs, 0 < dof.manufacturingGridDbu) :
    sharedGrid dofs = sharedGrid dofs' := by
  obtain ⟨hforward, hbackward⟩ := h.exists_same
  have hgrids' : ∀ other ∈ dofs', 0 < other.manufacturingGridDbu := by
    intro other hother
    obtain ⟨dof, hdof, hsame⟩ := hbackward other hother
    exact hsame.grid ▸ hgrids dof hdof
  have hmultiples : ∀ x, sharedGrid dofs ∣ x ↔ sharedGrid dofs' ∣ x := by
    intro x
    rw [sharedGrid_dvd_iff, sharedGrid_dvd_iff]
    constructor
    · intro hall other hother
      obtain ⟨dof, hdof, hsame⟩ := hbackward other hother
      exact hsame.grid ▸ hall dof hdof
    · intro hall dof hdof
      obtain ⟨other, hother, hsame⟩ := hforward dof hdof
      exact hsame.grid ▸ hall other hother
  exact Int.dvd_antisymm (sharedGrid_pos hgrids).le (sharedGrid_pos hgrids').le
    ((hmultiples _).2 (Int.dvd_refl _)) ((hmultiples _).1 (Int.dvd_refl _))

end Reordered

/-- **The common domain.**  Of parameters with positive grids, the intervals that are
returned contain, among the multiples of the grid that is returned, just the values that every
parameter allows on its grid; they are in order, disjoint, and maximal runs of these values;
and no other order of the parameters or of their intervals gives another result. -/
theorem intersectDofDomains_exact (dofs : List RepairDOF) (hne : dofs ≠ [])
    (hgrids : ∀ dof ∈ dofs, 0 < dof.manufacturingGridDbu) :
    points (intersectDofDomains dofs).2 (intersectDofDomains dofs).1 = commonPoints dofs ∧
      ((intersectDofDomains dofs).1.Pairwise fun first second => first.2 < second.1) ∧
      (∀ run, run ∈ (intersectDofDomains dofs).1 ↔
        MaximalRun (intersectDofDomains dofs).2 (commonPoints dofs) run) ∧
      ∀ dofs', Reordered dofs dofs' → intersectDofDomains dofs' = intersectDofDomains dofs := by
  obtain ⟨hgridEq, hruns, hpoints⟩ := intersectDofDomains_spec hne hgrids
  have hgrid := sharedGrid_pos hgrids
  rw [hgridEq]
  refine ⟨hpoints, ?_, fun run => ?_, fun dofs' hreordered => ?_⟩
  · exact hruns.separated.imp fun hlt => by omega
  · rw [hruns.mem_iff_maximalRun hgrid, hpoints]
  · -- the runs are told by their points, which do not depend on the order
    obtain ⟨hforward, hbackward⟩ := hreordered.exists_same
    have hne' : dofs' ≠ [] := by
      rintro rfl
      obtain ⟨dof, hdof⟩ := exists_mem_of_ne_nil dofs hne
      obtain ⟨other, hother, -⟩ := hforward dof hdof
      cases hother
    have hgrids' : ∀ other ∈ dofs', 0 < other.manufacturingGridDbu := by
      intro other hother
      obtain ⟨dof, hdof, hsame⟩ := hbackward other hother
      exact hsame.grid ▸ hgrids dof hdof
    obtain ⟨hgridEq', hruns', hpoints'⟩ := intersectDofDomains_spec hne' hgrids'
    rw [← hreordered.sharedGrid_eq hgrids] at hgridEq' hruns' hpoints'
    have hsamePoints : points (sharedGrid dofs) (intersectDofDomains dofs').1 =
        points (sharedGrid dofs) (intersectDofDomains dofs).1 := by
      rw [hpoints, hpoints', hreordered.commonPoints_eq]
    exact Prod.ext (hruns'.eq_of_points_eq hgrid hruns hsamePoints) (hgridEq'.trans hgridEq.symm)

/-- Two parameters on grids of two and of three, one with two overlapping intervals. -/
def sampleDofs : List RepairDOF :=
  [⟨-20, 20, [(5, 13), (-7, 6)], 2, by decide⟩, ⟨-6, 40, [(-40, 30)], 3, by decide⟩]

theorem intersectDofDomains_sample :
    intersectDofDomains sampleDofs = ([(-6, 12)], 6) ∧
      points (intersectDofDomains sampleDofs).2 (intersectDofDomains sampleDofs).1 =
        commonPoints sampleDofs := by
  have hgrids : ∀ dof ∈ sampleDofs, 0 < dof.manufacturingGridDbu := by decide
  exact ⟨by decide +kernel, (intersectDofDomains_exact sampleDofs (cons_ne_nil _ _) hgrids).1⟩

end DRCAgent.Dofs
