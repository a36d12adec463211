import Mathlib

/-!
# Disjoint sets with path halving

The forest is a list of parents.  A root is its own parent, a find shortens the
path it walks by letting nodes skip their parent, and a union hangs the larger
root below the smaller one.
-/

namespace SwitchFailover.Library.DisjointSets

variable {left right : ℕ} {link : ℕ → ℕ → Prop}

/-- The forest of `size` singletons. -/
def singletons (size : ℕ) : List ℕ := List.range size

/-- Walk to the root, replacing the parent of each visited node by its
grandparent.  The number of nodes bounds the length of a path. -/
def findWithin : ℕ → List ℕ → ℕ → ℕ × List ℕ
  | 0, parents, value => (value, parents)
  | fuel + 1, parents, value =>
      let parent := parents.getD value value
      if parent = value then (value, parents)
      else
        let grandparent := parents.getD parent parent
        findWithin fuel (parents.set value grandparent) grandparent

def find (parents : List ℕ) (value : ℕ) : ℕ × List ℕ :=
  findWithin parents.length parents value

def unite (parents : List ℕ) (left right : ℕ) : List ℕ :=
  let (leftRoot, parents) := find parents left
  let (rightRoot, parents) := find parents right
  if leftRoot = rightRoot then parents
  else if leftRoot < rightRoot then parents.set rightRoot leftRoot
  else parents.set leftRoot rightRoot

/-! ## Roots

Every union hangs the larger root below the smaller one, so parents never exceed their
children and the walk to the root is finite. -/

def parentOf (parents : List ℕ) (value : ℕ) : ℕ := parents.getD value value

def Descending (parents : List ℕ) : Prop := ∀ value, parentOf parents value ≤ value

def root (parents : List ℕ) (value : ℕ) : ℕ := (parentOf parents)^[value] value

variable {parents changed : List ℕ} {value : ℕ}

theorem parentOf_set (target : ℕ) (hvalue : value < parents.length) (other : ℕ) :
    parentOf (parents.set value target) other =
      if other = value then target else parentOf parents other := by
  by_cases hsame : other = value
  · rw [if_pos hsame, hsame]
    simp [parentOf, List.getD_eq_getElem?_getD, hvalue]
  · rw [if_neg hsame]
    simp [parentOf, List.getD_eq_getElem?_getD, List.getElem?_set_ne (Ne.symm hsame)]

theorem parentOf_of_length_le (hvalue : parents.length ≤ value) :
    parentOf parents value = value := by
  simp [parentOf, List.getD_eq_getElem?_getD, hvalue]

theorem lt_length_of_parentOf_ne (hparent : parentOf parents value ≠ value) :
    value < parents.length := by
  by_contra hbeyond
  exact hparent (parentOf_of_length_le (not_lt.mp hbeyond))

theorem root_of_fixed (hfixed : parentOf parents value = value) : root parents value = value :=
  Function.iterate_fixed hfixed value

section Descending

variable (hdescending : Descending parents)

include hdescending

/-- More steps than the value of a node lead to its root as well. -/
theorem iterate_parentOf (value steps : ℕ) (hsteps : value ≤ steps) :
    (parentOf parents)^[steps] value = root parents value := by
  induction value using Nat.strong_induction_on generalizing steps with
  | _ value ih =>
    by_cases hfixed : parentOf parents value = value
    · rw [root_of_fixed hfixed, Function.iterate_fixed hfixed]
    · have hless : parentOf parents value < value :=
        lt_of_le_of_ne (hdescending value) hfixed
      obtain ⟨steps, rfl⟩ := Nat.exists_eq_succ_of_ne_zero (show steps ≠ 0 by omega)
      obtain ⟨before, rfl⟩ := Nat.exists_eq_succ_of_ne_zero (show value ≠ 0 by omega)
      rw [root, Function.iterate_succ_apply, Function.iterate_succ_apply,
        ih _ hless steps (by omega), ih _ hless before (by omega)]

theorem root_parentOf (value : ℕ) : root parents (parentOf parents value) = root parents value := by
  rw [← iterate_parentOf hdescending value (value + 1) (Nat.le_succ _),
    Function.iterate_succ_apply, iterate_parentOf hdescending _ _ (hdescending value)]

theorem parentOf_root (value : ℕ) : parentOf parents (root parents value) = root parents value := by
  calc parentOf parents (root parents value) = (parentOf parents)^[value + 1] value :=
        (Function.iterate_succ_apply' _ _ _).symm
    _ = root parents value := iterate_parentOf hdescending value (value + 1) (Nat.le_succ _)

theorem root_le (value : ℕ) : root parents value ≤ value := by
  induction value using Nat.strong_induction_on with
  | _ value ih =>
    by_cases hfixed : parentOf parents value = value
    · rw [root_of_fixed hfixed]
    · have hless := lt_of_le_of_ne (hdescending value) hfixed
      rw [← root_parentOf hdescending]
      exact (ih _ hless).trans hless.le

end Descending

/-- What a find may do to the forest: shorten paths, and nothing that shows in the
roots. -/
structure Shortened (parents changed : List ℕ) : Prop where
  descending : Descending changed
  length : changed.length = parents.length
  root : ∀ value, root changed value = root parents value

theorem Shortened.refl (hdescending : Descending parents) : Shortened parents parents :=
  ⟨hdescending, rfl, fun _ => rfl⟩

/-- Letting a node skip its parent leaves all roots. -/
theorem shortened_halve (hdescending : Descending parents)
    (hparent : parentOf parents value ≠ value) :
    Shortened parents (parents.set value (parentOf parents (parentOf parents value))) := by
  have hvalue := lt_length_of_parentOf_ne hparent
  have hless := lt_of_le_of_ne (hdescending value) hparent
  have hgrand := (hdescending (parentOf parents value)).trans_lt hless
  have hchanged : Descending (parents.set value (parentOf parents (parentOf parents value))) := by
    intro other
    rw [parentOf_set _ hvalue]
    split_ifs with hsame
    · rw [hsame]
      exact hgrand.le
    · exact hdescending other
  refine ⟨hchanged, List.length_set, fun other => ?_⟩
  induction other using Nat.strong_induction_on with
  | _ other ih =>
    have hstep := parentOf_set (parentOf parents (parentOf parents value)) hvalue other
    by_cases hsame : other = value
    · rw [if_pos hsame] at hstep
      rw [← root_parentOf hchanged, hstep, ih _ (hsame ▸ hgrand), root_parentOf hdescending,
        root_parentOf hdescending, hsame]
    · rw [if_neg hsame] at hstep
      by_cases hfixed : parentOf parents other = other
      · rw [root_of_fixed hfixed, root_of_fixed (hstep.trans hfixed)]
      · have hdown := lt_of_le_of_ne (hdescending other) hfixed
        rw [← root_parentOf hchanged, hstep, ih _ hdown, root_parentOf hdescending]

theorem findWithin_spec (hdescending : Descending parents) (fuel : ℕ) (hfuel : value ≤ fuel) :
    (findWithin fuel parents value).1 = root parents value ∧
      Shortened parents (findWithin fuel parents value).2 := by
  induction fuel generalizing parents value with
  | zero =>
    obtain rfl := Nat.le_zero.mp hfuel
    exact ⟨rfl, Shortened.refl hdescending⟩
  | succ fuel ih =>
    rw [findWithin]
    by_cases hfixed : parents.getD value value = value
    · rw [if_pos hfixed]
      exact ⟨(root_of_fixed hfixed).symm, Shortened.refl hdescending⟩
    · rw [if_neg hfixed]
      have hhalved := shortened_halve hdescending hfixed
      have hless : parentOf parents value < value :=
        lt_of_le_of_ne (hdescending value) hfixed
      have hgrand := hdescending (parentOf parents value)
      have hrest := ih hhalved.descending
        (show parentOf parents (parentOf parents value) ≤ fuel by omega)
      rw [hhalved.root, root_parentOf hdescending, root_parentOf hdescending] at hrest
      exact ⟨hrest.1, hrest.2.descending, hrest.2.length.trans hhalved.length,
        fun other => (hrest.2.root other).trans (hhalved.root other)⟩

theorem find_spec (hdescending : Descending parents) (value : ℕ) :
    (find parents value).1 = root parents value ∧ Shortened parents (find parents value).2 := by
  by_cases hvalue : value ≤ parents.length
  · exact findWithin_spec hdescending _ hvalue
  · -- a value outside of the forest is its own root
    have hfixed := parentOf_of_length_le (not_le.mp hvalue).le
    have hstays : find parents value = (value, parents) := by
      rw [find]
      cases parents.length with
      | zero => rfl
      | succ fuel => rw [findWithin, if_pos (show parents.getD value value = value from hfixed)]
    rw [hstays]
    exact ⟨(root_of_fixed hfixed).symm, Shortened.refl hdescending⟩

/-- Hanging one root below a smaller one joins their classes. -/
theorem root_hang (hdescending : Descending parents) {upper lower : ℕ} (hless : upper < lower)
    (hlower : lower < parents.length) (hupperRoot : parentOf parents upper = upper)
    (hlowerRoot : parentOf parents lower = lower) :
    Descending (parents.set lower upper) ∧ ∀ value, root (parents.set lower upper) value =
        if root parents value = lower then upper else root parents value := by
  have hchanged : Descending (parents.set lower upper) := by
    intro other
    rw [parentOf_set _ hlower]
    split_ifs with hsame
    · rw [hsame]
      exact hless.le
    · exact hdescending other
  refine ⟨hchanged, fun value => ?_⟩
  induction value using Nat.strong_induction_on with
  | _ value ih =>
    have hstep := parentOf_set upper hlower value
    by_cases hsame : value = lower
    · rw [if_pos hsame] at hstep
      have hupper := parentOf_set upper hlower upper
      rw [if_neg hless.ne, hupperRoot] at hupper
      rw [← root_parentOf hchanged, hstep, root_of_fixed hupper, hsame,
        root_of_fixed hlowerRoot, if_pos rfl]
    · rw [if_neg hsame] at hstep
      by_cases hfixed : parentOf parents value = value
      · rw [root_of_fixed (hstep.trans hfixed), root_of_fixed hfixed, if_neg hsame]
      · have hdown := lt_of_le_of_ne (hdescending value) hfixed
        rw [← root_parentOf hchanged, hstep, ih _ hdown, root_parentOf hdescending]

/-- A union gives the two classes the smaller of their roots and changes no other. -/
theorem root_unite (hdescending : Descending parents) (hleft : left < parents.length)
    (hright : right < parents.length) :
    Descending (unite parents left right) ∧ (unite parents left right).length = parents.length ∧
      ∀ value, root (unite parents left right) value =
        if root parents value = max (root parents left) (root parents right)
        then min (root parents left) (root parents right) else root parents value := by
  obtain ⟨hleftRoot, hfirst⟩ := find_spec hdescending left
  obtain ⟨hrightRoot, hsecond⟩ := find_spec hfirst.descending right
  rw [hfirst.root] at hrightRoot
  have hroots : ∀ value, root (find (find parents left).2 right).2 value = root parents value :=
    fun value => (hsecond.root value).trans (hfirst.root value)
  have hlength := hsecond.length.trans hfirst.length
  have hisRoot : ∀ value, parentOf (find (find parents left).2 right).2 (root parents value) =
      root parents value := by
    intro value
    rw [← hroots]
    exact parentOf_root hsecond.descending value
  have hbound : ∀ value, value < parents.length →
      root parents value < (find (find parents left).2 right).2.length := by
    intro value hvalue
    rw [hlength]
    exact (root_le hdescending value).trans_lt hvalue
  simp only [unite, hleftRoot, hrightRoot]
  split_ifs with heq hless
  · refine ⟨hsecond.descending, hlength, fun value => ?_⟩
    rw [hroots, heq, max_self, min_self]
    split_ifs with hsame
    · exact hsame
    · rfl
  · obtain ⟨hchanged, hhung⟩ := root_hang hsecond.descending hless (hbound right hright)
      (hisRoot left) (hisRoot right)
    refine ⟨hchanged, List.length_set.trans hlength, fun value => ?_⟩
    rw [hhung, hroots, max_eq_right hless.le, min_eq_left hless.le]
  · have hgreater : root parents right < root parents left :=
      lt_of_le_of_ne (not_lt.mp hless) (Ne.symm heq)
    obtain ⟨hchanged, hhung⟩ := root_hang hsecond.descending hgreater (hbound left hleft)
      (hisRoot right) (hisRoot left)
    refine ⟨hchanged, List.length_set.trans hlength, fun value => ?_⟩
    rw [hhung, hroots, max_eq_left hgreater.le, min_eq_right hgreater.le]

theorem descending_singletons (size : ℕ) : Descending (singletons size) := by
  intro value
  rw [parentOf, singletons, List.getD_eq_getElem?_getD]
  by_cases hvalue : value < size
  · simp [hvalue]
  · simp [hvalue]

/-! ## The loop of a find -/

/-- The test of the loop, over the forest and the node it has reached. -/
def Moving (state : List ℕ × ℕ) : Prop := parentOf state.1 state.2 ≠ state.2

/-- The body of the loop. -/
def halveRound (state : List ℕ × ℕ) : List ℕ × ℕ :=
  (state.1.set state.2 (parentOf state.1 (parentOf state.1 state.2)),
    parentOf state.1 (parentOf state.1 state.2))

/-- The loop runs this number of rounds and then stops. -/
structure StopsAfter (state : List ℕ × ℕ) (rounds : ℕ) : Prop where
  moving : ∀ earlier < rounds, Moving (halveRound^[earlier] state)
  stopped : ¬Moving (halveRound^[rounds] state)

/-- A walk visits smaller and smaller nodes, so the loop stops, and no bound that is large
enough to let it shows in its result. -/
theorem findWithin_stops (hdescending : Descending parents) {fuel : ℕ} (hfuel : value ≤ fuel) :
    ∃ rounds ≤ value, StopsAfter (parents, value) rounds ∧
      findWithin fuel parents value = (halveRound^[rounds] (parents, value)).swap := by
  induction fuel generalizing parents value with
  | zero =>
    obtain rfl := Nat.le_zero.mp hfuel
    refine ⟨0, le_rfl, ⟨fun _ hearlier => absurd hearlier (Nat.not_lt_zero _), ?_⟩, rfl⟩
    exact not_not.mpr (Nat.le_zero.mp (hdescending 0))
  | succ fuel ih =>
    rw [findWithin]
    by_cases hfixed : parents.getD value value = value
    · refine ⟨0, Nat.zero_le _, ⟨fun _ hearlier => absurd hearlier (Nat.not_lt_zero _), ?_⟩, ?_⟩
      · exact not_not.mpr hfixed
      · exact if_pos hfixed
    · have hless : parentOf parents value < value := lt_of_le_of_ne (hdescending value) hfixed
      have hgrand := hdescending (parentOf parents value)
      obtain ⟨rounds, hrounds, hstops, hresult⟩ := ih
        (shortened_halve hdescending hfixed).descending
        (show parentOf parents (parentOf parents value) ≤ fuel by omega)
      refine ⟨rounds + 1, by omega, ⟨?_, hstops.stopped⟩, ?_⟩
      · intro earlier hearlier
        cases earlier with
        | zero => exact hfixed
        | succ earlier => exact hstops.moving earlier (Nat.lt_of_succ_lt_succ hearlier)
      · rw [if_neg hfixed]
        exact hresult

theorem find_stops (hdescending : Descending parents) (hvalue : value < parents.length) :
    ∃ rounds ≤ value, StopsAfter (parents, value) rounds ∧
      find parents value = (halveRound^[rounds] (parents, value)).swap :=
  findWithin_stops hdescending hvalue.le

/-! ## Classes

The nodes of one tree are those that the unions so far have linked, directly or in several
steps.  Finds may come in between. -/

structure Classes (parents : List ℕ) (link : ℕ → ℕ → Prop) : Prop where
  descending : Descending parents
  joined : ∀ first second,
    root parents first = root parents second ↔ Relation.EqvGen link first second

theorem Classes.congr {other : ℕ → ℕ → Prop} (hclasses : Classes parents link)
    (hsame : ∀ first second, link first second ↔ other first second) : Classes parents other := by
  have heq : link = other := funext fun first => funext fun second => propext (hsame first second)
  exact heq ▸ hclasses

theorem Classes.shorten (hclasses : Classes parents link) (hshortened : Shortened parents changed) :
    Classes changed link := by
  refine ⟨hshortened.descending, fun first second => ?_⟩
  rw [hshortened.root, hshortened.root]
  exact hclasses.joined first second

theorem classes_singletons (size : ℕ) : Classes (singletons size) fun _ _ => False := by
  have hroot : ∀ value, root (singletons size) value = value := by
    intro value
    apply root_of_fixed
    rw [parentOf, singletons, List.getD_eq_getElem?_getD]
    by_cases hvalue : value < size
    · simp [hvalue]
    · simp [hvalue]
  refine ⟨descending_singletons size, fun first second => ?_⟩
  rw [hroot, hroot]
  constructor
  · rintro rfl
    exact Relation.EqvGen.refl first
  · intro hlinked
    induction hlinked with
    | rel _ _ hlink => exact hlink.elim
    | refl _ => rfl
    | symm _ _ _ ih => exact ih.symm
    | trans _ _ _ _ _ ih ihNext => exact ih.trans ihNext

/-- A union adds its two arguments to the links, and nothing else. -/
theorem Classes.unite (hclasses : Classes parents link) (hleft : left < parents.length)
    (hright : right < parents.length) :
    Classes (unite parents left right) fun first second =>
      link first second ∨ first = left ∧ second = right := by
  obtain ⟨hchanged, -, hroots⟩ := root_unite hclasses.descending hleft hright
  refine ⟨hchanged, fun first second => ?_⟩
  rw [hroots, hroots]
  have hkept : ∀ {one other}, root parents one = root parents other →
      Relation.EqvGen (fun first second => link first second ∨ first = left ∧ second = right)
        one other := by
    intro one other hsame
    exact ((hclasses.joined one other).mp hsame).mono fun _ _ => Or.inl
  have hnew : Relation.EqvGen
      (fun first second => link first second ∨ first = left ∧ second = right) left right :=
    Relation.EqvGen.rel _ _ (Or.inr ⟨rfl, rfl⟩)
  constructor
  · intro hsame
    -- either the roots were the same, or they are those of the two arguments
    have hcases : root parents first = root parents second ∨
        (root parents first = root parents left ∧ root parents second = root parents right) ∨
        (root parents first = root parents right ∧ root parents second = root parents left) := by
      split_ifs at hsame <;> omega
    obtain hold | ⟨hone, hother⟩ | ⟨hone, hother⟩ := hcases
    · exact hkept hold
    · exact (hkept hone).trans _ _ _ (hnew.trans _ _ _ (hkept hother.symm))
    · exact (hkept hone).trans _ _ _ ((hnew.symm _ _).trans _ _ _ (hkept hother.symm))
  · intro hlinked
    induction hlinked with
    | rel one other hlink =>
      obtain hold | ⟨rfl, rfl⟩ := hlink
      · rw [(hclasses.joined one other).mpr (Relation.EqvGen.rel _ _ hold)]
      · split_ifs <;> omega
    | refl _ => rfl
    | symm _ _ _ ih => exact ih.symm
    | trans _ _ _ _ _ ih ihNext => exact ih.trans ihNext

/-- The operations of the structure. -/
inductive Call
  | find (value : ℕ)
  | unite (left right : ℕ)

def Call.InRange (size : ℕ) : Call → Prop
  | find value => value < size
  | unite left right => left < size ∧ right < size

def perform (parents : List ℕ) : Call → List ℕ
  | .find value => (find parents value).2
  | .unite left right => unite parents left right

/-- After any calls, the trees are the classes of what was united. -/
theorem classes_performed {size : ℕ} {calls : List Call}
    (hrange : ∀ call ∈ calls, call.InRange size) :
    (calls.foldl perform (singletons size)).length = size ∧
      Classes (calls.foldl perform (singletons size)) fun left right =>
        Call.unite left right ∈ calls := by
  induction calls using List.reverseRecOn with
  | nil => exact ⟨List.length_range, (classes_singletons size).congr fun _ _ => by simp⟩
  | append_singleton calls call ih =>
    rw [List.forall_mem_append] at hrange
    obtain ⟨hlength, hclasses⟩ := ih hrange.1
    have hcall := hrange.2 call List.mem_cons_self
    rw [List.foldl_append, List.foldl_cons, List.foldl_nil]
    generalize calls.foldl perform (singletons size) = parents at hlength hclasses ⊢
    cases call with
    | find value =>
      have hshortened := (find_spec hclasses.descending value).2
      exact ⟨hshortened.length.trans hlength,
        (hclasses.shorten hshortened).congr fun _ _ => by simp⟩
    | unite left right =>
      obtain ⟨hleft, hright⟩ := hcall
      rw [← hlength] at hleft hright
      refine ⟨(root_unite hclasses.descending hleft hright).2.1.trans hlength, ?_⟩
      exact (hclasses.unite hleft hright).congr fun _ _ => by simp

end SwitchFailover.Library.DisjointSets
