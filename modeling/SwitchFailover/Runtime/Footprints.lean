import SwitchFailover.Model.Obligation
import SwitchFailover.Runtime.Durability

/-!
# What an operation may touch

The operations that neither make nor apply a plan leave the retained plans and the
journal's records about plans alone, except that a declaration supersedes plans.
Of the rest of the coordinator each of them touches little: it may replace the
policy, bind authority to generations, or say that a generation has failed.
-/

namespace SwitchFailover.Runtime

open SwitchFailover.Core Model Plan Persist Library.Effects

variable {kind : RecordKind} {impl : Impl} {bound : GenerationVector} {record : EvidenceRecord}
  {operation : Operation} {env : Env} {outcome : Except Stop Unit}

/-! ## Footprints -/

/-- Whether the policy may be replaced, what authority may be bound to, and which
generations may be said to have failed. -/
structure Footprint where
  revises : Prop
  binds : GenerationVector → Prop
  impeaches : SwitchKey → Prop

def Footprint.nothing : Footprint := ⟨False, fun _ => False, fun _ => False⟩

/-- A record about a plan or its application. -/
def AboutPlan (record : Record) : Prop :=
  record.header.kind = RecordKind.planCommitted.raw ∨
    record.header.kind = RecordKind.applyCompleted.raw

/-- The history has grown by records about other things than plans. -/
def GrowsBeside (first last : Disk) : Prop :=
  ∃ added, last.completed = first.completed ++ added ∧ ∀ record ∈ added, ¬AboutPlan record

/-- A retained plan has stayed as it was or has been superseded. -/
def Descends (plan before : ReconstructionPlan) : Prop :=
  plan.id = before.id ∧ (plan.state = before.state ∨ plan.state = .superseded)

structure Confined (footprint : Footprint) (first last : Impl) : Prop where
  nextPlan : last.nextPlan = first.nextPlan
  planCount : last.plans.size = first.plans.size
  plans : ∀ (id : PlanId) (plan : ReconstructionPlan), last.plans[id]? = some plan →
    ∃ before, first.plans[id]? = some before ∧ Descends plan before
  records : GrowsBeside first.disk last.disk
  policy : footprint.revises ∨ last.policy = first.policy
  grants : ∀ id grant, last.authority.ActiveUnder id grant →
    first.authority.ActiveUnder id grant ∨ footprint.binds grant.bound
  failures : ∀ key, footprint.impeaches key ∨ last.failures.find key = first.failures.find key
  evidence : ∀ key, ∀ record ∈ last.evidence.forSubject key, record.asserts .failure = true →
    record ∈ first.evidence.forSubject key ∨ footprint.impeaches key

section Confined

variable {footprint : Footprint} {first middle last : Impl}

theorem GrowsBeside.refl (disk : Disk) : GrowsBeside disk disk :=
  ⟨[], (List.append_nil _).symm, fun _ hrecord => absurd hrecord List.not_mem_nil⟩

theorem GrowsBeside.trans {first middle last : Disk} (hfirst : GrowsBeside first middle)
    (hlast : GrowsBeside middle last) : GrowsBeside first last := by
  obtain ⟨before, hbefore, hothers⟩ := hfirst
  obtain ⟨after, hafter, hrest⟩ := hlast
  refine ⟨before ++ after, by rw [hafter, hbefore, List.append_assoc], fun record hrecord => ?_⟩
  rcases List.mem_append.mp hrecord with hearly | hlate
  · exact hothers record hearly
  · exact hrest record hlate

/-- What no field of the relation speaks of may change freely. -/
theorem Confined.of_same (hnext : last.nextPlan = first.nextPlan)
    (hplans : last.plans = first.plans) (hdisk : last.disk = first.disk)
    (hpolicy : last.policy = first.policy)
    (hauthority : last.authority = first.authority) (hfailures : last.failures = first.failures)
    (hevidence : last.evidence = first.evidence) : Confined footprint first last where
  nextPlan := hnext
  planCount := by rw [hplans]
  plans _ plan hplan := ⟨plan, hplans ▸ hplan, rfl, Or.inl rfl⟩
  records := hdisk ▸ GrowsBeside.refl _
  policy := Or.inr hpolicy
  grants _ _ hactive := Or.inl (hauthority ▸ hactive)
  failures _ := Or.inr (by rw [hfailures])
  evidence _ _ hrecord _ := Or.inl (hevidence ▸ hrecord)

theorem Confined.refl (impl : Impl) : Confined footprint impl impl :=
  Confined.of_same rfl rfl rfl rfl rfl rfl rfl

theorem Descends.trans {plan middle before : ReconstructionPlan} (hlast : Descends plan middle)
    (hfirst : Descends middle before) : Descends plan before := by
  refine ⟨hlast.1.trans hfirst.1, ?_⟩
  rcases hlast.2 with hsame | hsuperseded
  · rcases hfirst.2 with hkept | hearlier
    · exact Or.inl (hsame.trans hkept)
    · exact Or.inr (hsame.trans hearlier)
  · exact Or.inr hsuperseded

theorem Confined.trans (hfirst : Confined footprint first middle)
    (hlast : Confined footprint middle last) : Confined footprint first last where
  nextPlan := hlast.nextPlan.trans hfirst.nextPlan
  planCount := hlast.planCount.trans hfirst.planCount
  plans id plan hplan := by
    obtain ⟨between, hbetween, hdescends⟩ := hlast.plans id plan hplan
    obtain ⟨before, hbefore, hearlier⟩ := hfirst.plans id between hbetween
    exact ⟨before, hbefore, hdescends.trans hearlier⟩
  records := hfirst.records.trans hlast.records
  policy := by
    rcases hlast.policy with hrevises | hsame
    · exact Or.inl hrevises
    · exact hfirst.policy.imp_right hsame.trans
  grants id grant hactive := by
    rcases hlast.grants id grant hactive with hbefore | hbinds
    · exact hfirst.grants id grant hbefore
    · exact Or.inr hbinds
  failures key := by
    rcases hlast.failures key with himpeaches | hsame
    · exact Or.inl himpeaches
    · exact (hfirst.failures key).imp_right hsame.trans
  evidence key record hrecord hfailure := by
    rcases hlast.evidence key record hrecord hfailure with hbefore | himpeaches
    · exact hfirst.evidence key record hbefore hfailure
    · exact Or.inr himpeaches

end Confined

/-- The relation between the two ends of a call, however it ended. -/
def Bounded (footprint : Footprint) (_ : Except Stop Unit) (first last : CallState) : Prop :=
  Confined footprint first.impl last.impl

instance (footprint : Footprint) : Sequential (Bounded footprint) where
  refl state := Confined.refl state.impl
  trans hfirst hlast := Confined.trans hfirst hlast

/-! ## The primitives -/

section Primitives

variable {A : Type} {footprint : Footprint}

theorem bounded_ofResult {result : Result A} : Keeps (Bounded footprint) (ofResult result) := by
  cases result with
  | ok value => exact keeps_pure
  | error status => exact keeps_throw fun state => Confined.refl state.impl

theorem bounded_getImpl : Keeps (Bounded footprint) getImpl := keeps_get.bind fun _ => keeps_pure

theorem bounded_now : Keeps (Bounded footprint) now := fun state => Confined.refl state.impl

theorem bounded_modifyImpl {change : Impl → Impl}
    (hchange : ∀ impl, Confined footprint impl (change impl)) :
    Keeps (Bounded footprint) (modifyImpl change) := fun state => hchange state.impl

theorem bounded_ensureRunning : Keeps (Bounded footprint) ensureRunning :=
  bounded_getImpl.bind fun _ => bounded_ofResult

theorem bounded_requireTopology {message : Bytes} :
    Keeps (Bounded footprint) (requireTopology message) :=
  bounded_getImpl.bind fun _ => bounded_ofResult

theorem growsBeside_append (store : DurableStore) (disk : Disk) (fate : Fate)
    (hplan : kind ≠ .planCommitted) (happly : kind ≠ .applyCompleted) (payload : Bytes) :
    GrowsBeside disk (store.append disk fate kind payload).2.2 := by
  rcases completed_append store disk fate kind payload with hsame | hadded
  · rw [GrowsBeside, hsame]
    exact GrowsBeside.refl disk
  · refine ⟨[store.recordFor kind payload], hadded, fun record hrecord => ?_⟩
    rw [List.mem_singleton.mp hrecord]
    rintro (hcommitted | hcompleted)
    · exact hplan (kind_of_recordFor hcommitted)
    · exact happly (kind_of_recordFor hcompleted)

theorem confined_appended (impl : Impl) (store : DurableStore) (fate : Fate)
    (hplan : kind ≠ .planCommitted) (happly : kind ≠ .applyCompleted) (payload : Bytes) :
    Confined footprint impl (impl.appended store fate kind payload) :=
  { Confined.refl impl with
    records := growsBeside_append store impl.disk fate hplan happly payload }

theorem bounded_appendRecord (hplan : kind ≠ .planCommitted) (happly : kind ≠ .applyCompleted)
    (payload : Bytes) : Keeps (Bounded footprint) (appendRecord kind payload) := by
  intro state
  rw [After]
  cases hstore : state.impl.store with
  | none =>
    rw [execute_appendRecord_none hstore]
    exact Confined.refl state.impl
  | some store =>
    rw [execute_appendRecord_some hstore]
    exact confined_appended state.impl store _ hplan happly payload

theorem bounded_persistRecord (hplan : kind ≠ .planCommitted) (happly : kind ≠ .applyCompleted)
    (payload : Bytes) : Keeps (Bounded footprint) (persistRecord kind payload) :=
  (bounded_appendRecord hplan happly payload).bind fun _ => bounded_ofResult

end Primitives

/-! ## Authority -/

section Authority

variable {footprint : Footprint}

theorem confined_mint {dependent : DependentRef} {time : TimestampNs} {detail : Bytes}
    {id : GrantId} {authority : AuthorityRegistry} (hbinds : footprint.binds bound)
    (hmint : impl.mint dependent bound time detail = .ok (id, authority)) :
    Confined footprint impl { impl with authority } := by
  obtain ⟨-, -, rfl⟩ := AuthorityRegistry.grant_eq_ok.mp hmint
  refine { Confined.refl impl with grants := ?_ }
  intro owner grant hactive
  rcases AuthorityRegistry.activeUnder_enter hactive with hbefore | ⟨-, rfl, -⟩
  · exact Or.inl hbefore
  · exact Or.inr hbinds

/-- Withdrawing grants binds nothing. -/
theorem confined_demote (impl : Impl) {change : GrantId → AuthorityGrant → AuthorityGrant}
    (hdemotes : AuthorityRegistry.Demotes change) :
    Confined footprint impl { impl with
      authority := { impl.authority with grants := impl.authority.grants.map change } } :=
  { Confined.refl impl with
    grants := fun _ _ hactive => Or.inl (AuthorityRegistry.activeUnder_map hdemotes hactive).1 }

theorem bounded_grantDeclared (dependent : DependentRef) (hbinds : footprint.binds bound) :
    Keeps (Bounded footprint) (grantDeclared dependent bound) := by
  rw [grantDeclared]
  split
  · exact keeps_pure
  · refine bounded_now.bind fun time => bounded_modifyImpl fun impl => ?_
    cases hmint : impl.mint dependent bound time (text "established by topology declaration") with
    | error status => exact Confined.refl impl
    | ok granted => exact confined_mint hbinds hmint

/-- The generations a topology binds authority to. -/
def boundBy (topology : TopologySnapshot) (bound : GenerationVector) : Prop :=
  (∃ path ∈ topology.paths, bound = boundOf path.hops) ∨
    ∃ link ∈ topology.links, bound = boundOf [link.a.sw, link.b.sw]

theorem bounded_installTopology (topology : TopologySnapshot) :
    Keeps (Bounded ⟨False, boundBy topology, fun _ => False⟩) (installTopology topology) := by
  refine bounded_ensureRunning.bind fun _ => bounded_ofResult.bind fun _ =>
    (bounded_persistRecord (by decide) (by decide) _).bind fun _ =>
      (bounded_modifyImpl fun _ => ?_).bind fun _ =>
        (keeps_forM ?_).bind fun _ => keeps_forM ?_
  · exact Confined.of_same rfl rfl rfl rfl rfl rfl rfl
  · intro path hpath
    exact bounded_grantDeclared _ (Or.inl ⟨path, hpath, rfl⟩)
  · intro link hlink
    exact bounded_grantDeclared _ (Or.inr ⟨link, hlink, rfl⟩)

theorem bounded_establishAuthority (dependent : DependentRef) (bound : GenerationVector)
    (detail : Bytes) :
    Keeps (Bounded ⟨False, (· = bound), fun _ => False⟩)
      (establishAuthority dependent bound detail) := by
  refine bounded_ensureRunning.bind fun _ => bounded_now.bind fun time state => ?_
  rw [after_getImpl]
  apply After.check
  · intro status _
    exact Confined.refl state.impl
  · rintro ⟨id, authority⟩ hmint
    rw [after_modifyImpl_last]
    exact confined_mint rfl hmint

theorem bounded_withdrawAuthority (dependent : DependentRef) (cause : RevocationCause)
    (detail : Bytes) :
    Keeps (Bounded footprint) (withdrawAuthority dependent cause detail) :=
  bounded_ensureRunning.bind fun _ => bounded_modifyImpl fun impl =>
    confined_demote impl (AuthorityRegistry.demotes_ite (by decide))

end Authority

/-! ## Evidence and lineage -/

section Evidence

variable {footprint : Footprint}

/-- Admitting a record says of no generation that it failed, unless the record
does. -/
theorem confined_admission (impl : Impl) (time : TimestampNs)
    (himpeaches : record.asserts .failure = true → footprint.impeaches record.subject) :
    Confined footprint impl
      { impl with evidence := (impl.evidence.admitRecord time record).2 } := by
  refine { Confined.refl impl with evidence := ?_ }
  intro key other hother hfailure
  rcases impl.evidence.forSubject_admitRecord time record key with hsame | ⟨-, rfl, hbucket⟩
  · rw [hsame] at hother
    exact Or.inl hother
  · rw [hbucket] at hother
    rcases EvidenceStore.mem_forSubject_retained hother with rfl | hbefore
    · exact Or.inr (himpeaches hfailure)
    · exact Or.inl hbefore

theorem bounded_admitToStore
    (himpeaches : record.asserts .failure = true → footprint.impeaches record.subject) :
    Keeps (Bounded footprint) (admitToStore record) :=
  fun state => after_admit_last (confined_admission state.impl _ himpeaches)
    fun _ => confined_admission state.impl _ himpeaches

theorem bounded_admitEvidence (record : EvidenceRecord) :
    Keeps (Bounded ⟨False, fun _ => False, fun key =>
      record.asserts .failure = true ∧ key = record.subject⟩) (admitEvidence record) :=
  bounded_ensureRunning.bind fun _ => bounded_getImpl.bind fun _ => bounded_ofResult.bind fun _ =>
    bounded_ofResult.bind fun _ => bounded_ofResult.bind fun _ =>
      bounded_admitToStore fun hfailure => ⟨hfailure, rfl⟩

theorem bounded_recordEffectVerification (verification : EvidenceRecord) :
    Keeps (Bounded footprint) (recordEffectVerification verification) := by
  intro state
  rw [recordEffectVerification]
  apply After.check
  · intro status _
    exact Confined.refl state.impl
  intro _ hkind
  have hsilent : ∀ impl : Impl, (impl.stamp verification).asserts .failure = true →
      footprint.impeaches (impl.stamp verification).subject := by
    intro impl hfailure
    rw [require_eq_ok, Bool.or_eq_true, beq_iff_eq, beq_iff_eq] at hkind
    rcases hkind with heffect | hfailed
    · simp [EvidenceRecord.asserts, Impl.stamp, heffect] at hfailure
    · simp [EvidenceRecord.asserts, Impl.stamp, hfailed] at hfailure
  refine (bounded_ensureRunning.bind fun _ => Keeps.bind bounded_ofResult fun _ =>
    bounded_getImpl.bind fun impl => (bounded_admitToStore (hsilent impl)).bind fun _ => ?_) state
  cases impl.plans[verification.effectPlan]? with
  | none => exact keeps_throw fun final => Confined.refl final.impl
  | some plan =>
    refine (bounded_modifyImpl fun _ => ?_).bind fun _ => bounded_ofResult
    exact Confined.of_same rfl rfl rfl rfl rfl rfl rfl

variable {declaration : FailureDeclaration}

theorem bounded_assertFailure (himpeaches : footprint.impeaches declaration.subject) :
    Keeps (Bounded footprint) (assertFailure declaration) := by
  refine bounded_getImpl.bind fun impl => (bounded_modifyImpl fun _ => ?_).bind fun _ => ?_
  · exact Confined.of_same rfl rfl rfl rfl rfl rfl rfl
  · have hsubject : (declaration.assertion impl).asserts .failure = true →
        footprint.impeaches (declaration.assertion impl).subject := fun _ => himpeaches
    exact (bounded_admitToStore hsubject).bind fun _ => bounded_now.bind fun _ =>
      bounded_getImpl.bind fun _ => bounded_ofResult.bind fun _ => keeps_pure

/-- Lineage is entered for the generation of the record. -/
theorem find_record {table failures : FailureTable} {record : FailureRecord}
    (hrecord : table.record record = .ok failures) {key : SwitchKey}
    (hother : key ≠ record.subject) : failures.find key = table.find key := by
  simp only [FailureTable.record, result_bind_eq_ok, require_eq_ok, exists_const] at hrecord
  obtain ⟨-, -, hentered⟩ := hrecord
  have hinserted : (⟨table.entries.insert record.subject record⟩ : FailureTable).find key =
      table.find key := by
    simp [FailureTable.find, Std.TreeMap.getElem?_insert, Ne.symm hother]
  split at hentered
  · split at hentered
    · cases hentered
      rfl
    · cases hentered
      exact hinserted
  · cases hentered
    exact hinserted

theorem bounded_commitLineage (himpeaches : footprint.impeaches declaration.subject)
    (evidence : EvidenceId) : Keeps (Bounded footprint) (commitLineage declaration evidence) := by
  refine bounded_now.bind fun time => bounded_getImpl.bind fun impl => Keeps.bind
    (bounded_persistRecord (by decide) (by decide) _) fun _ state => ?_
  rw [after_getImpl]
  apply After.check
  · intro status _
    exact Confined.refl state.impl
  · intro failures hfailures
    rw [after_modifyImpl]
    refine { Confined.refl state.impl with failures := fun key => ?_ }
    by_cases hsubject : key = declaration.subject
    · rw [hsubject]
      exact Or.inl himpeaches
    · exact Or.inr (find_record hfailures hsubject)

theorem bounded_recordFailureLocked (himpeaches : footprint.impeaches declaration.subject) :
    Keeps (Bounded footprint) (recordFailureLocked declaration) :=
  bounded_ofResult.bind fun _ => bounded_ensureRunning.bind fun _ =>
    bounded_requireTopology.bind fun _ => (bounded_assertFailure himpeaches).bind fun evidence =>
      bounded_commitLineage himpeaches evidence

theorem bounded_recordFailure (himpeaches : footprint.impeaches declaration.subject) :
    Keeps (Bounded footprint) (recordFailure declaration) :=
  bounded_ofResult.bind fun _ => bounded_recordFailureLocked himpeaches

end Evidence

/-! ## Declarations -/

section Declaring

variable {footprint : Footprint} {declaration : FailureDeclaration}

theorem descends_superseded (subject : SwitchKey) (plan : ReconstructionPlan) :
    Descends (superseded subject plan) plan := by
  rw [superseded]
  split
  · exact ⟨rfl, Or.inl rfl⟩
  split
  · exact ⟨rfl, Or.inr rfl⟩
  · exact ⟨rfl, Or.inl rfl⟩

theorem confined_superseding (impl : Impl) (subject : SwitchKey) :
    Confined footprint impl (impl.superseding subject) := by
  refine { Confined.refl impl with planCount := Std.TreeMap.size_map, plans := ?_ }
  intro id plan hplan
  rw [Impl.superseding, Std.TreeMap.getElem?_map, Option.map_eq_some_iff] at hplan
  obtain ⟨before, hbefore, rfl⟩ := hplan
  exact ⟨before, hbefore, descends_superseded subject before⟩

theorem bounded_sweepSubject (subject : SwitchKey) :
    Keeps (Bounded footprint) (sweepSubject subject) :=
  fun state => confined_demote state.impl (AuthorityRegistry.demotes_sweep _)

theorem bounded_commitNewFence (closure : DependencyClosure) (grantsFenced : ℕ) :
    Keeps (Bounded footprint) (commitNewFence declaration closure grantsFenced) := by
  refine bounded_now.bind fun time => fun state => ?_
  rw [after_getImpl]
  apply After.check
  · intro status _
    exact Confined.refl state.impl
  · rintro ⟨id, authority⟩ hcommit
    obtain ⟨-, -, -, -, -, rfl⟩ := AuthorityRegistry.commitFence_eq_ok.mp hcommit
    rw [after_modifyImpl]
    have hjournal : ∀ (payload : Bytes) (fence : FenceRecord), Keeps (Bounded footprint) (do
        persistRecord .fenceCommitted payload
        return fence) :=
      fun payload _ => (bounded_persistRecord (by decide) (by decide) payload).bind
        fun _ => keeps_pure
    refine (hjournal _ _ _).mono fun _ _ hlast => Confined.trans ?_ hlast
    exact { Confined.refl state.impl with grants := fun _ _ hactive => Or.inl hactive }

theorem bounded_declareFailure (himpeaches : footprint.impeaches declaration.subject) :
    Keeps (Bounded footprint) (declareFailure declaration) := by
  refine bounded_ofResult.bind fun _ => bounded_ensureRunning.bind fun _ =>
    (bounded_recordFailureLocked himpeaches).bind fun _ => bounded_getImpl.bind fun impl =>
      Keeps.bind ?_ fun _ => (bounded_modifyImpl fun other => confined_superseding other _).bind
        fun _ => keeps_pure
  refine (bounded_sweepSubject _).bind fun count => bounded_getImpl.bind fun swept => ?_
  split
  · exact keeps_pure
  · exact (bounded_commitNewFence _ count).bind fun _ => keeps_pure

end Declaring

/-! ## All operations -/

theorem bounded_installCandidates {footprint : Footprint} (candidates : CandidateTable) :
    Keeps (Bounded footprint) (installCandidates candidates) := by
  refine bounded_ensureRunning.bind fun _ => bounded_modifyImpl fun _ => ?_
  exact Confined.of_same rfl rfl rfl rfl rfl rfl rfl

theorem bounded_installPolicy (policy : Policy) :
    Keeps (Bounded ⟨True, fun _ => False, fun _ => False⟩) (installPolicy policy) := by
  refine bounded_ofResult.bind fun _ => bounded_ensureRunning.bind fun _ =>
    (bounded_persistRecord (by decide) (by decide) _).bind fun _ =>
      bounded_modifyImpl fun impl => ?_
  exact { Confined.refl impl with policy := Or.inl trivial }

theorem bounded_shutdown {footprint : Footprint} : Keeps (Bounded footprint) shutdown := by
  refine bounded_getImpl.bind fun impl => ?_
  split
  · exact keeps_pure
  · refine (bounded_modifyImpl fun _ => ?_).bind fun _ =>
      (bounded_appendRecord (by decide) (by decide) _).bind fun _ =>
        (bounded_modifyImpl fun _ => ?_).bind fun _ => bounded_ofResult
    · exact Confined.of_same rfl rfl rfl rfl rfl rfl rfl
    · exact Confined.of_same rfl rfl rfl rfl rfl rfl rfl

def Operation.footprint : Operation → Footprint
  | .installTopology topology => ⟨False, boundBy topology, fun _ => False⟩
  | .installPolicy _ => ⟨True, fun _ => False, fun _ => False⟩
  | .establishAuthority _ bound _ => ⟨False, (· = bound), fun _ => False⟩
  | .admitEvidence record =>
      ⟨False, fun _ => False, fun key => record.asserts .failure = true ∧ key = record.subject⟩
  | .recordFailure declaration | .declareFailure declaration =>
      ⟨False, fun _ => False, (· = declaration.subject)⟩
  | _ => .nothing

/-- The operations that neither make nor apply a plan. -/
def Operation.isBeside : Operation → Prop
  | .proposePlan _ | .applyPlan _ => False
  | _ => True

/-- The three kinds of operations, as facts about plans are proved for them. -/
theorem Operation.plans_or_isBeside (operation : Operation) :
    (∃ failed, operation = .proposePlan failed) ∨ (∃ request, operation = .applyPlan request) ∨
      operation.isBeside := by
  cases operation with
  | proposePlan failed => exact Or.inl ⟨failed, rfl⟩
  | applyPlan request => exact Or.inr (Or.inl ⟨request, rfl⟩)
  | _ => exact Or.inr (Or.inr trivial)

theorem Operation.bounded (hbeside : operation.isBeside) :
    Keeps (Bounded operation.footprint) operation.call := by
  cases operation with
  | installTopology topology => exact bounded_installTopology topology
  | installCandidates candidates => exact bounded_installCandidates candidates
  | installPolicy policy => exact bounded_installPolicy policy
  | establishAuthority dependent bound detail =>
    exact bounded_establishAuthority dependent bound detail
  | withdrawAuthority dependent cause detail =>
    exact bounded_withdrawAuthority dependent cause detail
  | admitEvidence record => exact bounded_admitEvidence record
  | recordFailure declaration =>
    exact Keeps.bind (bounded_recordFailure rfl) fun _ => keeps_pure
  | declareFailure declaration =>
    exact Keeps.bind (bounded_declareFailure rfl) fun _ => keeps_pure
  | proposePlan failed => exact hbeside.elim
  | applyPlan request => exact hbeside.elim
  | recordEffectVerification verification => exact bounded_recordEffectVerification verification
  | shutdown => exact bounded_shutdown

theorem callOn_confined (hbeside : operation.isBeside) (impl : Impl) (env : Env) :
    Confined operation.footprint impl (callOn impl operation.call env).2.impl :=
  Operation.bounded hbeside { impl, env }

/-! ## Opening -/

theorem growsBeside_journaled (impl : Impl) (hplan : kind ≠ .planCommitted)
    (happly : kind ≠ .applyCompleted) (payload : Bytes) :
    GrowsBeside impl.disk (impl.journaled kind payload).disk := by
  rw [Impl.journaled]
  split
  · exact GrowsBeside.refl _
  · exact growsBeside_append _ _ _ hplan happly payload

/-- An announcement says nothing about plans. -/
theorem Announced.growsBeside {last : Impl} (hannounced : Announced env impl outcome last) :
    GrowsBeside impl.disk last.disk := by
  have hheaded : GrowsBeside impl.disk impl.headed.disk :=
    growsBeside_journaled impl (by decide) (by decide) _
  cases hannounced with
  | headerFailed store stop hstore hstop =>
    exact growsBeside_append store impl.disk _ (by decide) (by decide) _
  | first hwritten hepoch => exact hheaded
  | advanceFailed store stop hwritten hstore hstop =>
    exact hheaded.trans (growsBeside_append store _ _ (by decide) (by decide) _)
  | advanced hwritten hepoch =>
    exact hheaded.trans (growsBeside_journaled impl.headed (by decide) (by decide) _)

theorem Opened.growsBeside {config : CoordinatorConfig} {process : Process} {disk : Disk}
    {last : Impl} (hopened : Opened config process env disk outcome last) :
    GrowsBeside disk last.disk := by
  cases hopened with
  | refused status => exact GrowsBeside.refl disk
  | started hlimits hdurable => exact GrowsBeside.refl disk
  | restored store trimmed opening outcome last hlimits hdurable hopen hannounced =>
    obtain ⟨added, hadded, hothers⟩ := hannounced.growsBeside
    refine ⟨added, ?_, hothers⟩
    rw [hadded]
    change trimmed.completed ++ added = _
    rw [open_completed hopen]

end SwitchFailover.Runtime
