import SwitchFailover.Library.Duplicates
import SwitchFailover.Plan.Accounting
import SwitchFailover.Plan.Evaluation

/-!
# What the candidate table keeps

The table is sorted by every field the uniqueness test compares and then by the evidence
identity, so of the candidates that are one alternative one with the smallest evidence
identity is kept.  The source of a candidate is in neither comparison: which of several
candidates with the smallest evidence identity is kept is up to the sort, and the kept one
need not come from an authoritative source even where another one does.  Nothing is assumed
of the sort but that it sorts.
-/

namespace SwitchFailover.Plan

open SwitchFailover.Core Model Library

variable {left right candidate kept : ReconstructionCandidate}
  {candidates one other : List ReconstructionCandidate} {limits : Limits}

namespace ReconstructionCandidate

/-- What the uniqueness test compares. -/
def identity (candidate : ReconstructionCandidate) :
    DependentRef × SwitchKey × List SwitchKey × List LinkId × UInt32 × CapabilityMask :=
  (candidate.dependent, candidate.coversFailed, candidate.hops, candidate.links, candidate.cost,
    candidate.capabilities)

theorem sameAlternative_iff :
    left.sameAlternative right = true ↔ left.identity = right.identity := by
  simp [sameAlternative, identity, and_assoc]

theorem differs_iff (left right : ReconstructionCandidate) :
    left.sameAlternative right = false ↔ left.identity ≠ right.identity := by
  rw [← Bool.not_eq_true, sameAlternative_iff]

theorem ext_of_identity (hidentity : left.identity = right.identity)
    (hevidence : left.evidence = right.evidence) (hsource : left.source = right.source) :
    left = right := by
  cases left
  cases right
  simp_all [identity]

/-- Within one alternative the table order is the order of the evidence identities. -/
theorem tableRank_le_iff (hidentity : left.identity = right.identity) :
    left.tableRank ≤ right.tableRank ↔ left.evidence ≤ right.evidence := by
  simp only [identity, Prod.mk.injEq] at hidentity
  obtain ⟨hdependent, hcovers, hhops, hlinks, hcost, hcapabilities⟩ := hidentity
  simp [tableRank, Prod.Lex.le_iff, hdependent, hcovers, hhops, hlinks, hcost, hcapabilities]

theorem convex_identity : Duplicates.Convex tableRank identity := by
  intro first middle last hfirst hlast hidentity
  simp only [identity, Prod.mk.injEq] at hidentity ⊢
  obtain ⟨hdependent, hcovers, hhops, hlinks, hcost, hcapabilities⟩ := hidentity
  simp only [tableRank] at hfirst hlast
  rw [← hdependent, ← hcovers, ← hhops, ← hlinks, ← hcost, ← hcapabilities] at hlast
  obtain ⟨hmiddle₁, hfirst, hlast⟩ := Duplicates.lex_squeeze hfirst hlast
  obtain ⟨hmiddle₂, hfirst, hlast⟩ := Duplicates.lex_squeeze hfirst hlast
  obtain ⟨-, hfirst, hlast⟩ := Duplicates.lex_squeeze hfirst hlast
  obtain ⟨hmiddle₃, hfirst, hlast⟩ := Duplicates.lex_squeeze hfirst hlast
  obtain ⟨hmiddle₄, hfirst, hlast⟩ := Duplicates.lex_squeeze hfirst hlast
  obtain ⟨hmiddle₅, hfirst, hlast⟩ := Duplicates.lex_squeeze hfirst hlast
  obtain ⟨hmiddle₆, -, -⟩ := Duplicates.lex_squeeze hfirst hlast
  exact ⟨hmiddle₁, hmiddle₆, hmiddle₃, hmiddle₄, UInt32.toNat_inj.mp hmiddle₂,
    UInt32.toNat_inj.mp hmiddle₅⟩

end ReconstructionCandidate

namespace CandidateTable

/-! ## The arranged candidates -/

variable {order : Order candidates}

/-- No candidate of the same alternative has a smaller evidence identity. -/
def Least (candidates : List ReconstructionCandidate) (candidate : ReconstructionCandidate) :
    Prop :=
  ∀ other ∈ candidates, other.sameAlternative candidate = true →
    candidate.evidence ≤ other.evidence

theorem Least.perm (hperm : one.Perm other) (hleast : Least one candidate) :
    Least other candidate :=
  fun rival hrival => hleast rival (hperm.mem_iff.mpr hrival)

/-- Of each alternative the first in the order is kept. -/
theorem mem_arrange : kept ∈ arrange order ↔
    order.list.find? (fun other => other.sameAlternative kept) = some kept := by
  have htest : (fun other : ReconstructionCandidate => other.sameAlternative kept) =
      fun other => decide ¬other.sameAlternative kept = false := by
    funext other
    simp
  rw [htest]
  exact order.mem_destutter ReconstructionCandidate.differs_iff
    ReconstructionCandidate.convex_identity

theorem arrange_nodup (order : Order candidates) : (arrange order).Nodup := by
  have hdistinct : (arrange order).Pairwise fun left right => left.identity ≠ right.identity :=
    order.pairwise_destutter ReconstructionCandidate.differs_iff
      ReconstructionCandidate.convex_identity
  refine hdistinct.imp ?_
  rintro left right hidentity rfl
  exact hidentity rfl

theorem arrange_pairwise_rank (order : Order candidates) :
    (arrange order).Pairwise fun left right => left.tableRank ≤ right.tableRank :=
  order.sorted.sublist (List.destutter_sublist _ _)

theorem mem_of_mem_arrange (hkept : kept ∈ arrange order) : kept ∈ candidates :=
  order.perm.mem_iff.mp ((List.destutter_sublist _ _).subset hkept)

theorem sameAlternative_congr (hidentity : left.identity = right.identity) :
    (fun other : ReconstructionCandidate => other.sameAlternative left) =
      fun other => other.sameAlternative right := by
  funext other
  rw [Bool.eq_iff_iff, ReconstructionCandidate.sameAlternative_iff,
    ReconstructionCandidate.sameAlternative_iff, hidentity]

/-- Every supplied candidate has its alternative in the table. -/
theorem exists_mem_arrange (order : Order candidates) (hcandidate : candidate ∈ candidates) :
    ∃ kept ∈ arrange order, kept.identity = candidate.identity := by
  cases hfound : order.list.find? fun other => other.sameAlternative candidate with
  | none =>
    have hdiffers := List.find?_eq_none.mp hfound candidate (order.perm.mem_iff.mpr hcandidate)
    exact absurd (ReconstructionCandidate.sameAlternative_iff.mpr rfl) hdiffers
  | some kept =>
    have hsame := (List.find?_eq_some_iff_append.mp hfound).1
    have hidentity := ReconstructionCandidate.sameAlternative_iff.mp hsame
    exact ⟨kept, mem_arrange.mpr (by rw [sameAlternative_congr hidentity, hfound]), hidentity⟩

theorem eq_of_mem_arrange (hleft : left ∈ arrange order) (hright : right ∈ arrange order)
    (hidentity : left.identity = right.identity) : left = right := by
  rw [mem_arrange] at hleft hright
  rw [sameAlternative_congr hidentity, hright] at hleft
  exact (Option.some.inj hleft).symm

/-- What is kept has the smallest evidence identity of its alternative. -/
theorem least_of_mem_arrange (hkept : kept ∈ arrange order) : Least candidates kept := by
  intro other hother hsame
  have hidentity := ReconstructionCandidate.sameAlternative_iff.mp hsame
  rw [← ReconstructionCandidate.tableRank_le_iff hidentity.symm]
  exact order.le_of_find? (mem_arrange.mp hkept) hother hsame

/-- Some order of the sort keeps any given candidate with that property. -/
theorem Least.exists_order (hleast : Least candidates candidate)
    (hcandidate : candidate ∈ candidates) : ∃ order : Order candidates,
      candidate ∈ arrange order := by
  refine ⟨.favouring _ hcandidate, mem_arrange.mpr ?_⟩
  apply Duplicates.Arrangement.find?_favouring
  · exact ReconstructionCandidate.sameAlternative_iff.mpr rfl
  · intro other hother hsame
    have hidentity := ReconstructionCandidate.sameAlternative_iff.mp hsame
    rw [ReconstructionCandidate.tableRank_le_iff hidentity.symm]
    exact hleast other hother hsame

/-- What `build` requires of its arguments. -/
structure Acceptable (candidates : List ReconstructionCandidate) (limits : Limits) : Prop where
  bounds : limits.validate = .ok ()
  count : candidates.length ≤ limits.maxCandidatesEvaluated
  validated : ∀ candidate ∈ candidates, candidate.validate = .ok ()

theorem Acceptable.perm (hperm : one.Perm other) (haccepted : Acceptable other limits) :
    Acceptable one limits where
  bounds := haccepted.bounds
  count := hperm.length_eq ▸ haccepted.count
  validated := fun candidate hcandidate =>
    haccepted.validated candidate (hperm.mem_iff.mp hcandidate)

theorem ext_candidates {left right : CandidateTable}
    (hcandidates : left.candidates = right.candidates) (hdigest : left.digest = right.digest) :
    left = right := by
  cases left
  cases right
  cases hcandidates
  cases hdigest
  rfl

theorem of_build_eq_ok {table : CandidateTable} (hbuilt : build candidates limits order = .ok table) :
    Acceptable candidates limits ∧ table.candidates = arrange order ∧
      table.digest = digestOf (arrange order) := by
  unfold build at hbuilt
  obtain ⟨⟨_, hlimits⟩, _, hbuilt⟩ := result_bind_eq_ok.mp hbuilt
  obtain ⟨⟨_, hwithin⟩, _, hbuilt⟩ := result_bind_eq_ok.mp hbuilt
  obtain ⟨⟨_, hvalidated⟩, _, hbuilt⟩ := result_bind_eq_ok.mp hbuilt
  cases hbuilt
  exact ⟨⟨hlimits, (requireWithin_eq_ok _ _ _ _).mp hwithin, forM_eq_ok.mp hvalidated⟩, rfl, rfl⟩

theorem exists_build (order : Order candidates) (haccepted : Acceptable candidates limits) :
    ∃ table, build candidates limits order = .ok table := by
  unfold build
  rw [attach_of_eq_ok haccepted.bounds,
    attach_of_eq_ok ((requireWithin_eq_ok _ _ _ ()).mpr haccepted.count),
    attach_of_eq_ok (forM_eq_ok.mpr haccepted.validated)]
  exact ⟨_, rfl⟩

theorem toOption_build_of_acceptable (order : Order candidates)
    (haccepted : Acceptable candidates limits) :
    ∃ table, (build candidates limits order).toOption = some table ∧
      table.candidates = arrange order ∧ table.digest = digestOf (arrange order) := by
  obtain ⟨table, hbuilt⟩ := exists_build order haccepted
  obtain ⟨-, hcandidates, hdigest⟩ := of_build_eq_ok hbuilt
  exact ⟨table, by rw [hbuilt]; rfl, hcandidates, hdigest⟩

theorem toOption_build_of_not_acceptable (order : Order candidates)
    (hrefused : ¬Acceptable candidates limits) :
    (build candidates limits order).toOption = none := by
  cases hbuilt : build candidates limits order with
  | error status => rfl
  | ok table => exact absurd (of_build_eq_ok hbuilt).1 hrefused

/-! ## The order of the supplied candidates -/

/-- In whatever order the candidates are supplied and however the sort leaves them, all
orders are refused or all give one table, one policy digest and one plan. -/
def OrderIndependent (candidates : List ReconstructionCandidate) (limits : Limits) : Prop :=
  ∀ one other : List ReconstructionCandidate, one.Perm candidates → other.Perm candidates →
    ∀ (order : Order one) (reorder : Order other),
      (build one limits order).toOption = (build other limits reorder).toOption ∧
        ∀ (inputs : PlanInputs) (failed : GenerationVector),
          let first := { inputs with candidates := (build one limits order).toOption }
          let second := { inputs with candidates := (build other limits reorder).toOption }
          first.policyDigest = second.policyDigest ∧
            planReconstruction first failed = planReconstruction second failed

/-- The candidates of an alternative that share its smallest evidence identity come from
one source. -/
def SourceSettled (candidates : List ReconstructionCandidate) : Prop :=
  ∀ left ∈ candidates, ∀ right ∈ candidates, right.sameAlternative left = true →
    Least candidates left → right.evidence = left.evidence → right.source = left.source

theorem SourceSettled.perm (hperm : one.Perm other) (hsettled : SourceSettled other) :
    SourceSettled one := by
  intro left hleft right hright hsame hleast
  exact hsettled left (hperm.mem_iff.mp hleft) right (hperm.mem_iff.mp hright) hsame
    (hleast.perm hperm)

/-- Where the sources are settled, being kept does not depend on the order. -/
theorem SourceSettled.mem_arrange_iff (hsettled : SourceSettled candidates)
    (order : Order candidates) : kept ∈ arrange order ↔ kept ∈ candidates ∧
      Least candidates kept := by
  constructor
  · intro hkept
    exact ⟨mem_of_mem_arrange hkept, least_of_mem_arrange hkept⟩
  · rintro ⟨hmem, hleast⟩
    obtain ⟨first, hfirst, hidentity⟩ := exists_mem_arrange order hmem
    have hsame := ReconstructionCandidate.sameAlternative_iff.mpr hidentity
    have hevidence : first.evidence = kept.evidence := by
      apply le_antisymm
      · exact least_of_mem_arrange hfirst kept hmem
          (ReconstructionCandidate.sameAlternative_iff.mpr hidentity.symm)
      · exact hleast first (mem_of_mem_arrange hfirst) hsame
    have hsource := hsettled kept hmem first (mem_of_mem_arrange hfirst) hsame hleast hevidence
    rwa [← ReconstructionCandidate.ext_of_identity hidentity hevidence hsource]

theorem arrange_eq_of_perm (hperm : one.Perm other) (hsettled : SourceSettled other)
    (order : Order one) (reorder : Order other) : arrange order = arrange reorder := by
  have hmembers : (arrange order).Perm (arrange reorder) := by
    rw [List.perm_ext_iff_of_nodup (arrange_nodup _) (arrange_nodup _)]
    intro candidate
    rw [(hsettled.perm hperm).mem_arrange_iff, hsettled.mem_arrange_iff, hperm.mem_iff]
    exact and_congr_right fun _ => ⟨Least.perm hperm, Least.perm hperm.symm⟩
  refine hmembers.eq_of_pairwise ?_ (arrange_pairwise_rank order) (arrange_pairwise_rank reorder)
  intro left right hleft hright hle hge
  -- equal ranks are one alternative, and that is kept once
  refine eq_of_mem_arrange (hmembers.mem_iff.mp hleft) hright ?_
  exact ReconstructionCandidate.convex_identity right left right hge hle rfl

theorem OrderIndependent.sourceSettled (hindependent : OrderIndependent candidates limits)
    (haccepted : Acceptable candidates limits) : SourceSettled candidates := by
  intro left hleft right hright hsame hleast hevidence
  have hidentity := ReconstructionCandidate.sameAlternative_iff.mp hsame
  have hrightLeast : Least candidates right := by
    intro other hother hothers
    rw [hevidence]
    rw [congrFun (sameAlternative_congr hidentity) other] at hothers
    exact hleast other hother hothers
  -- one order of the sort keeps the one, another the other
  obtain ⟨order, hleftKept⟩ := hleast.exists_order hleft
  obtain ⟨reorder, hrightKept⟩ := hrightLeast.exists_order hright
  obtain ⟨first, hfirst, hfirstCandidates, -⟩ := toOption_build_of_acceptable order haccepted
  obtain ⟨second, hsecond, hsecondCandidates, -⟩ :=
    toOption_build_of_acceptable reorder haccepted
  have htables := (hindependent _ _ (.refl _) (.refl _) order reorder).1
  rw [hfirst, hsecond, Option.some.injEq] at htables
  rw [← hfirstCandidates, htables, hsecondCandidates] at hleftKept
  rw [eq_of_mem_arrange hleftKept hrightKept hidentity.symm]

/-- The table depends on the order in which the candidates are supplied or sorted exactly
when two accepted candidates with the smallest evidence identity of an alternative differ
in their source. -/
theorem orderIndependent_iff (candidates : List ReconstructionCandidate) (limits : Limits) :
    OrderIndependent candidates limits ↔
      (Acceptable candidates limits → SourceSettled candidates) := by
  refine ⟨OrderIndependent.sourceSettled, ?_⟩
  intro hsettled one other hone hother order reorder
  suffices htables : (build one limits order).toOption = (build other limits reorder).toOption by
    refine ⟨htables, ?_⟩
    intro inputs failed
    rw [htables]
    exact ⟨rfl, rfl⟩
  by_cases haccepted : Acceptable candidates limits
  · obtain ⟨first, hfirst, hfirstCandidates, hfirstDigest⟩ :=
      toOption_build_of_acceptable order (haccepted.perm hone)
    obtain ⟨second, hsecond, hsecondCandidates, hsecondDigest⟩ :=
      toOption_build_of_acceptable reorder (haccepted.perm hother)
    have harranged : arrange order = arrange reorder :=
      arrange_eq_of_perm (hone.trans hother.symm) ((hsettled haccepted).perm hother) order reorder
    have hequal : first = second := by
      apply ext_candidates
      · rw [hfirstCandidates, hsecondCandidates, harranged]
      · rw [hfirstDigest, hsecondDigest, harranged]
    rw [hfirst, hsecond, hequal]
  · rw [toOption_build_of_not_acceptable order fun h => haccepted (h.perm hone.symm),
      toOption_build_of_not_acceptable reorder fun h => haccepted (h.perm hother.symm)]

end CandidateTable

namespace Sample

/-- One alternative, supplied by the fabric manager and by a switch agent. -/
def byManager (evidence : EvidenceId) : ReconstructionCandidate :=
  { alternative 1 switchB 1 with evidence }

def byAgent (evidence : EvidenceId) : ReconstructionCandidate :=
  { alternative 1 switchB 1 with evidence, source := .switchAgent }

/-- The table of a list of candidates, sorted as short lists are: by insertion. -/
def tableOf (candidates : List ReconstructionCandidate) : Option CandidateTable :=
  (CandidateTable.build candidates {} (.insertion _)).toOption

def keptOf (candidates : List ReconstructionCandidate) : Option (List ReconstructionCandidate) :=
  (tableOf candidates).map (·.candidates)

def requestWith (candidates : List ReconstructionCandidate) : PlanInputs :=
  { request with candidates := tableOf candidates }

/-- The dependents that the plan over a list of candidates restores. -/
def restoredWith (candidates : List ReconstructionCandidate) : Option (List DependentRef) :=
  (planReconstruction (requestWith candidates) lost).toOption.map fun plan =>
    plan.restores.map (·.dependent)

end Sample

namespace CandidateTable

/-- Both candidates carry one evidence identity, so whichever comes first is kept; the
digests differ, and a restoration is planned in one order only. -/
theorem order_dependent_sample :
    Sample.keptOf [Sample.byManager ⟨1⟩, Sample.byAgent ⟨1⟩] = some [Sample.byManager ⟨1⟩] ∧
      Sample.keptOf [Sample.byAgent ⟨1⟩, Sample.byManager ⟨1⟩] = some [Sample.byAgent ⟨1⟩] ∧
      (Sample.requestWith [Sample.byManager ⟨1⟩, Sample.byAgent ⟨1⟩]).policyDigest ≠
        (Sample.requestWith [Sample.byAgent ⟨1⟩, Sample.byManager ⟨1⟩]).policyDigest ∧
      Sample.restoredWith [Sample.byManager ⟨1⟩, Sample.byAgent ⟨1⟩] = some [.path ⟨1⟩] ∧
      Sample.restoredWith [Sample.byAgent ⟨1⟩, Sample.byManager ⟨1⟩] = some [] := by
  refine ⟨?_, ?_, ?_, ?_, ?_⟩ <;> decide +kernel

/-! ## Authoritative candidates -/

/-- What removing duplicates should leave: an authoritative candidate of every alternative
that has one, and with it an admissible candidate wherever a supplied one is admissible
under a policy that requires authoritative evidence. -/
structure KeepsAuthority (candidates kept : List ReconstructionCandidate) : Prop where
  authority : ∀ candidate ∈ candidates, trustOf candidate.source = .authoritative →
    ∃ survivor ∈ kept, survivor.sameAlternative candidate = true ∧
      trustOf survivor.source = .authoritative
  admissible : ∀ (inputs : PlanInputs) (demand : Demand),
    inputs.planning.requireAuthoritativeCandidateEvidence = true →
      ∀ candidate ∈ candidates, judgeCandidate inputs demand candidate = .ok () →
        ∃ survivor ∈ kept, survivor.sameAlternative candidate = true ∧
          judgeCandidate inputs demand survivor = .ok ()

/-- Of every alternative with an authoritative candidate, all candidates with the smallest
evidence identity are authoritative. -/
def LeastAuthoritative (candidates : List ReconstructionCandidate) : Prop :=
  ∀ candidate ∈ candidates, trustOf candidate.source = .authoritative →
    ∀ least ∈ candidates, least.sameAlternative candidate = true → Least candidates least →
      trustOf least.source = .authoritative

/-- Apart from its origin, the verdict on a candidate is a verdict on the alternative. -/
theorem judged_of_identity {inputs : PlanInputs} {demand : Demand}
    {survivor : ReconstructionCandidate} (hidentity : survivor.identity = candidate.identity)
    (hsurvivor : trustOf survivor.source = .authoritative)
    (hjudged : judgeCandidate inputs demand candidate = .ok ()) :
    judgeCandidate inputs demand survivor = .ok () := by
  rw [judgeCandidate_eq_ok] at hjudged ⊢
  simp only [ReconstructionCandidate.identity, Prod.mk.injEq] at hidentity
  obtain ⟨-, hcovers, hhops, -, -, hcapabilities⟩ := hidentity
  refine ⟨hcovers.trans hjudged.covers, fun _ => hsurvivor, ?_⟩
  intro hop hhop
  rw [hhops] at hhop
  obtain ⟨hfailed, hfenced, hconflict, hobligation, descriptor, hfound, hcapable, hrest⟩ :=
    hjudged.hops hop hhop
  refine ⟨hfailed, hfenced, hconflict, hobligation, descriptor, hfound, ?_, hrest⟩
  rw [CapabilityHolds, hcapabilities]
  exact hcapable

/-- However the sort leaves the candidates, the table keeps authority exactly when of every
accepted alternative with an authoritative candidate all that may be kept are
authoritative. -/
theorem keepsAuthority_iff (candidates : List ReconstructionCandidate) (limits : Limits) :
    (∀ order table, build candidates limits order = .ok table →
        KeepsAuthority candidates table.candidates) ↔
      (Acceptable candidates limits → LeastAuthoritative candidates) := by
  constructor
  · intro hkeeps haccepted candidate hcandidate htrust least hmem hsame hleast
    obtain ⟨order, hkept⟩ := hleast.exists_order hmem
    obtain ⟨table, hbuilt⟩ := exists_build order haccepted
    obtain ⟨survivor, hsurvivor, hsurvives, hauthoritative⟩ :=
      (hkeeps order table hbuilt).authority candidate hcandidate htrust
    rw [(of_build_eq_ok hbuilt).2.1] at hsurvivor
    rw [ReconstructionCandidate.sameAlternative_iff] at hsame hsurvives
    rwa [eq_of_mem_arrange hkept hsurvivor (hsame.trans hsurvives.symm)]
  · intro hleast order table hbuilt
    obtain ⟨haccepted, hcandidates, -⟩ := of_build_eq_ok hbuilt
    have hauthority : ∀ candidate ∈ candidates, trustOf candidate.source = .authoritative →
        ∃ survivor ∈ table.candidates, survivor.sameAlternative candidate = true ∧
          trustOf survivor.source = .authoritative := by
      intro candidate hcandidate htrust
      obtain ⟨kept, hkept, hidentity⟩ := exists_mem_arrange order hcandidate
      have hsame := ReconstructionCandidate.sameAlternative_iff.mpr hidentity
      rw [hcandidates]
      exact ⟨kept, hkept, hsame, hleast haccepted candidate hcandidate htrust kept
        (mem_of_mem_arrange hkept) hsame (least_of_mem_arrange hkept)⟩
    refine ⟨hauthority, ?_⟩
    intro inputs demand hrequired candidate hcandidate hjudged
    obtain ⟨survivor, hsurvivor, hsame, hauthoritative⟩ :=
      hauthority candidate hcandidate ((judgeCandidate_eq_ok.mp hjudged).origin hrequired)
    exact ⟨survivor, hsurvivor, hsame, judged_of_identity
      (ReconstructionCandidate.sameAlternative_iff.mp hsame) hauthoritative hjudged⟩

/-- The candidate of the switch agent carries the smaller evidence identity and replaces
the one of the fabric manager, which alone is planned with. -/
theorem authority_lost_sample :
    Sample.restoredWith [Sample.byManager ⟨2⟩] = some [.path ⟨1⟩] ∧
      Sample.keptOf [Sample.byManager ⟨2⟩, Sample.byAgent ⟨1⟩] = some [Sample.byAgent ⟨1⟩] ∧
      trustOf (Sample.byManager ⟨2⟩).source = .authoritative ∧
      trustOf (Sample.byAgent ⟨1⟩).source ≠ .authoritative ∧
      Sample.restoredWith [Sample.byManager ⟨2⟩, Sample.byAgent ⟨1⟩] = some [] := by
  refine ⟨?_, ?_, ?_, ?_, ?_⟩ <;> decide +kernel

end CandidateTable

end SwitchFailover.Plan
