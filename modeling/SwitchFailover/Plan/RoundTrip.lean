import SwitchFailover.Model.Exactness
import SwitchFailover.Plan.Accounting
import SwitchFailover.Plan.Encoding

/-!
# Plans that are read back

One element limit, the bound on plan steps, governs every list and every string of an encoded
plan, and the writer stops at eight mebibytes without saying so.  A plan that the planner has
returned is read back exactly if its lists, the hops and links of its steps and the texts of
its unresolved entries respect that limit and the whole encoding fits.
-/

namespace SwitchFailover.Plan.ReconstructionPlan

open SwitchFailover.Core SwitchFailover.Codec SwitchFailover.Model
open SwitchFailover.Library.Codec SwitchFailover.Library.Ordering

variable {plan : ReconstructionPlan} {limits : Limits}

/-! ## Sizes -/

def restoreSize (step : RestoreStep) : ℕ :=
  62 + 16 * step.hops.length + 8 * step.links.length

def unresolvedSize (entry : UnresolvedDependent) : ℕ := 30 + entry.detail.length

/-- The length of the encoding of a plan, if it is not cut short. -/
def encodedSize (plan : ReconstructionPlan) : ℕ :=
  85 + 16 * plan.failedGenerations.size + 41 * plan.fences.length +
    (plan.restores.map fun step => restoreSize step).sum +
    (plan.unresolved.map fun entry => unresolvedSize entry).sum

theorem byteCount_fenceStep (step : FenceStep) : byteCount (writeFenceStep step) = 41 := rfl

theorem byteCount_restoreStep (step : RestoreStep) :
    byteCount (writeRestoreStep step) = restoreSize step := by
  simp only [writeRestoreStep, byteCount_append, byteCount_dependent, byteCount_key, byteCount_u8,
    byteCount_count, byteCount_flatMap, byteCount_u64, byteCount_u32, List.map_const',
    List.sum_replicate, smul_eq_mul, restoreSize]
  omega

theorem byteCount_unresolved (entry : UnresolvedDependent) :
    byteCount (writeUnresolved entry) = unresolvedSize entry := by
  simp only [writeUnresolved, byteCount_append, byteCount_dependent, byteCount_key, byteCount_u8,
    byteCount_string, unresolvedSize]
  omega

theorem byteCount_headChunks (plan : ReconstructionPlan) :
    byteCount plan.headChunks + 19 = plan.encodedSize := by
  simp only [headChunks, byteCount_append, byteCount_u8, byteCount_u64, byteCount_boot,
    byteCount_count, byteCount_flatMap, byteCount_key, byteCount_fenceStep, byteCount_restoreStep,
    byteCount_unresolved, List.map_const', List.sum_replicate, smul_eq_mul, encodedSize,
    GenerationVector.size]
  omega

/-! ## What is read back -/

/-- The bounds of the reader and the writer. -/
structure Transportable (elementLimit : ℕ) (plan : ReconstructionPlan) : Prop where
  failed : plan.failedGenerations.size ≤ elementLimit
  fences : plan.fences.length ≤ elementLimit
  restores : plan.restores.length ≤ elementLimit
  unresolved : plan.unresolved.length ≤ elementLimit
  hops : ∀ step ∈ plan.restores, step.hops.length ≤ elementLimit
  links : ∀ step ∈ plan.restores, step.links.length ≤ elementLimit
  details : ∀ entry ∈ plan.unresolved, entry.detail.length ≤ elementLimit
  fits : plan.encodedSize ≤ planWriterLimit

/-- What the type of a plan leaves open, and no plan of the planner has. -/
structure Wellformed (plan : ReconstructionPlan) : Prop where
  counts : ∀ step ∈ plan.fences, step.closureMembers < 2 ^ 64 ∧ step.omittedDependents < 2 ^ 64
  restored : ∀ step ∈ plan.restores, step.dependent.kind ≠ .unknown
  unresolved : ∀ entry ∈ plan.unresolved, entry.dependent.kind ≠ .unknown
  identified : plan.id.raw ≠ 0
  isSealed : plan.planDigest = plan.computeDigest

theorem closureStateOfRaw_raw (state : ClosureState) :
    closureStateOfRaw state.ctorIdx.toUInt8 = some state := by
  cases state <;> rfl

theorem planAction_ofRaw_raw (action : PlanAction) : PlanAction.ofRaw action.raw = some action := by
  cases action <;> rfl

theorem unresolvedReason_ofRaw_raw (reason : UnresolvedReason) :
    UnresolvedReason.ofRaw reason.raw = some reason := by
  cases reason <;> rfl

theorem planFeasibility_ofRaw_raw (feasibility : PlanFeasibility) :
    PlanFeasibility.ofRaw feasibility.raw = some feasibility := by
  cases feasibility <;> rfl

section Reading

variable {elementLimit : ℕ}

theorem reads_fenceStep {step : FenceStep} (hmembers : step.closureMembers < 2 ^ 64)
    (homitted : step.omittedDependents < 2 ^ 64) :
    Reads readFenceStep (writeFenceStep step).flatten step := by
  have hmembersBack : step.closureMembers.toUInt64.toNat = step.closureMembers :=
    UInt64.toNat_ofNat_of_lt' hmembers
  have homittedBack : step.omittedDependents.toUInt64.toNat = step.omittedDependents :=
    UInt64.toNat_ofNat_of_lt' homitted
  simp only [writeFenceStep, writeSize, List.flatten_append, List.append_assoc]
  refine (reads_key _).bind ((reads_u64 _).bind ((reads_u8 _).bind ((reads_u64 _).bind ?_)))
  rw [← List.append_nil (writeU64 step.omittedDependents.toUInt64).flatten]
  refine (reads_u64 _).bind ?_
  rw [readDefined, closureStateOfRaw_raw, hmembersBack, homittedBack]
  exact reads_pure _

theorem reads_restoreStep {step : RestoreStep} (hkind : step.dependent.kind ≠ .unknown)
    (hwidth : elementLimit < 2 ^ 32) (hhops : step.hops.length ≤ elementLimit)
    (hlinks : step.links.length ≤ elementLimit) :
    Reads (readRestoreStep elementLimit) (writeRestoreStep step).flatten step := by
  have hkeys := reads_keys hhops hwidth
  have hraws := reads_ids hlinks hwidth
  have hwithin : (decide (step.hops.length ≤ elementLimit) &&
      decide ((step.links.map StrongId.raw).length ≤ elementLimit)) = true := by
    rw [List.length_map, decide_eq_true hhops, decide_eq_true hlinks]
    rfl
  intro rest
  simp only [writeRestoreStep, List.flatten_append, List.append_assoc] at hkeys hraws ⊢
  rw [readRestoreStep, (reads_dependent hkind _).bind_apply, (reads_key _).bind_apply,
    (reads_u8 _).bind_apply, (reads_key _).bind_apply, readDefined, planAction_ofRaw_raw,
    pure_bind]
  rw [← bind_assoc, ← List.append_assoc (writeCount _).flatten, hkeys.bind_apply]
  rw [← bind_assoc, ← List.append_assoc (writeCount _).flatten, hraws.bind_apply]
  rw [(reads_u32 _).bind_apply, (reads_u64 _).bind_apply, readRequire, if_pos hwithin, pure_bind,
    map_mk_map_raw]
  rfl

theorem reads_unresolved {entry : UnresolvedDependent} (hkind : entry.dependent.kind ≠ .unknown)
    (hwidth : elementLimit < 2 ^ 32) (hdetail : entry.detail.length ≤ elementLimit) :
    Reads (readUnresolved elementLimit) (writeUnresolved entry).flatten entry := by
  simp only [writeUnresolved, List.flatten_append, List.append_assoc]
  refine (reads_dependent hkind _).bind ((reads_key _).bind ((reads_u8 _).bind ?_))
  rw [← List.append_nil (writeString entry.detail).flatten]
  refine (reads_string hdetail (hdetail.trans_lt hwidth)).bind ?_
  rw [readDefined, unresolvedReason_ofRaw_raw]
  exact reads_pure _

/-- What is read before the state of a plan. -/
def headOf (plan : ReconstructionPlan) : Head where
  id := plan.id.raw
  epoch := plan.epoch.raw
  boot := plan.boot
  failed := plan.failedGenerations.keys
  fences := plan.fences
  restores := plan.restores
  unresolved := plan.unresolved
  feasibility := plan.feasibility.raw

/-- And what is read after it. -/
def flagsOf (plan : ReconstructionPlan) : Flags where
  closureComplete := plan.closureComplete
  serviceWithheld := plan.serviceWithheld
  topologyDigest := plan.topologyDigest
  policyDigest := plan.policyDigest

theorem reads_head (hwidth : elementLimit < 2 ^ 32)
    (htransportable : plan.Transportable elementLimit) (hwellformed : plan.Wellformed) :
    Reads (readHead elementLimit) plan.headChunks.flatten plan.headOf := by
  have hfailed := reads_keys htransportable.failed hwidth
  have hfences : Reads (readListCount elementLimit (16 + 8 + 1 + 8 + 8) >>= readMany readFenceStep)
      (writeCount plan.fences.length ++ plan.fences.flatMap writeFenceStep).flatten plan.fences :=
    reads_list htransportable.fences (htransportable.fences.trans_lt hwidth)
      (fun step hstep => reads_fenceStep (hwellformed.counts step hstep).1
        (hwellformed.counts step hstep).2)
      fun step _ => (byteCount_fenceStep step).ge
  have hrestores : Reads (readListCount elementLimit (9 + 16 + 1 + 16 + 4) >>=
        readMany (readRestoreStep elementLimit))
      (writeCount plan.restores.length ++ plan.restores.flatMap writeRestoreStep).flatten
      plan.restores := by
    refine reads_list htransportable.restores (htransportable.restores.trans_lt hwidth)
      (fun step hstep => reads_restoreStep (hwellformed.restored step hstep) hwidth
        (htransportable.hops step hstep) (htransportable.links step hstep)) fun step _ => ?_
    refine le_trans ?_ (byteCount_restoreStep step).ge
    rw [restoreSize]
    omega
  have hunresolved : Reads (readListCount elementLimit (9 + 16 + 1) >>=
        readMany (readUnresolved elementLimit))
      (writeCount plan.unresolved.length ++ plan.unresolved.flatMap writeUnresolved).flatten
      plan.unresolved := by
    refine reads_list htransportable.unresolved (htransportable.unresolved.trans_lt hwidth)
      (fun entry hentry => reads_unresolved (hwellformed.unresolved entry hentry) hwidth
        (htransportable.details entry hentry)) fun entry _ => ?_
    refine le_trans ?_ (byteCount_unresolved entry).ge
    rw [unresolvedSize]
    omega
  intro rest
  simp only [headChunks, GenerationVector.size, List.flatten_append, List.append_assoc]
    at hfailed hfences hrestores hunresolved ⊢
  rw [readHead, (reads_u8 _).bind_apply, readRequire, if_pos (beq_self_eq_true _), pure_bind,
    (reads_u64 _).bind_apply, (reads_u64 _).bind_apply, (reads_boot _).bind_apply]
  rw [← bind_assoc, ← List.append_assoc (writeCount _).flatten, hfailed.bind_apply]
  rw [← bind_assoc, ← List.append_assoc (writeCount _).flatten, hfences.bind_apply]
  rw [← bind_assoc, ← List.append_assoc (writeCount _).flatten, hrestores.bind_apply]
  rw [← bind_assoc, ← List.append_assoc (writeCount _).flatten, hunresolved.bind_apply]
  rw [(reads_u8 _).bind_apply]
  rfl

theorem reads_flags (plan : ReconstructionPlan) :
    Reads readFlags plan.tailChunks.flatten plan.flagsOf := by
  simp only [tailChunks, List.flatten_append, List.append_assoc]
  exact (reads_boolean _).bind ((reads_boolean _).bind ((reads_u64 _).bind
    ((reads_u64 _).bindPure _)))

end Reading

/-- A sealed plan is sealed again as it is, whatever digest it was read with. -/
theorem sealed_again (hsealed : plan.planDigest = plan.computeDigest) (planDigest : UInt64) :
    { plan with planDigest }.sealed = plan := by
  rw [sealed, computeDigest_planDigest, ← hsealed]

theorem conclude_headOf (hwellformed : plan.Wellformed) :
    conclude plan.headOf plan.state.raw plan.flagsOf [] = .ok (plan, []) := by
  have hsome : (!(plan.headOf.failed.filter SwitchKey.valid).isEmpty ||
      !plan.headOf.fences.isEmpty || !plan.headOf.restores.isEmpty ||
      !plan.headOf.unresolved.isEmpty || plan.headOf.id != 0) = true := by
    have hid : (plan.headOf.id != 0) = true := bne_iff_ne.mpr hwellformed.identified
    rw [hid, Bool.or_true]
  have hfeasibility : PlanFeasibility.ofRaw plan.headOf.feasibility = some plan.feasibility :=
    planFeasibility_ofRaw_raw plan.feasibility
  have hkeys : GenerationVector.canonicalise plan.headOf.failed = plan.failedGenerations :=
    plan.failedGenerations.canonicalise_keys
  have hplan := sealed_again hwellformed.isSealed 0
  rw [conclude, readDefined, hfeasibility, pure_bind, readDefined, ofRaw_raw, pure_bind, hsome,
    hkeys]
  exact congrArg (fun read => Except.ok (read, [])) hplan

theorem decode_encode_of_transportable (hwidth : limits.maxPlanSteps < 2 ^ 32)
    (htransportable : plan.Transportable limits.maxPlanSteps) (hwellformed : plan.Wellformed) :
    decode plan.encode limits = .ok plan := by
  have hfits : plan.Fits := by
    have hsize := plan.byteCount_headChunks
    have hwithin := htransportable.fits
    rw [byteCount] at hsize
    rw [Fits]
    omega
  have hself : plan.inState plan.state = plan :=
    sealed_again hwellformed.isSealed plan.planDigest
  have hbytes := encode_inState hfits plan.state
  rw [hself] at hbytes
  refine decode_eq_ok.mpr ⟨[], ?_⟩
  have hstate : readU8 (plan.state.raw :: plan.tailChunks.flatten) =
      .ok (plan.state.raw, plan.tailChunks.flatten) := reads_u8 plan.state.raw _
  have hflags := reads_flags plan []
  rw [List.append_nil] at hflags
  rw [read_eq, hbytes, (reads_head hwidth htransportable hwellformed).bind_apply,
    bind_of_ok hstate, bind_of_ok hflags, conclude_headOf hwellformed]

/-! ## What is accepted -/

section Accepting

variable {elementLimit : ℕ}

theorem spends_defined {A : Type} (ofRaw : UInt8 → Option A) (raw : UInt8) (message : Bytes) :
    Spends (readDefined ofRaw raw message) fun spent _ => spent = [] := by
  intro bytes value rest hread
  exact ⟨[], (defined_rest hread).symm, rfl⟩

theorem spends_fenceStep :
    Spends readFenceStep fun spent _ => True ∧ 41 ≤ spent.length := by
  refine sound_key.bind fun key => sound_u64.bind fun digest => sound_u8.bind fun state =>
    sound_u64.bind fun members => sound_u64.bind fun omitted => ?_
  refine (spends_defined _ _ _).bind ?_
  rintro _ closureState rfl
  exact spends_pure ⟨trivial, by simp [writeKey, writeU64, writeU8]⟩

theorem readRestoreStep_eq :
    readRestoreStep elementLimit = (do
      let dependent ← readDependent (text "dependent kind is not defined")
      let coversFailed ← readKey
      let action ← readU8
      let replacement ← readKey
      let action ← readDefined PlanAction.ofRaw action
        (text "plan restore step has an undefined action")
      let hops ← readListCount elementLimit 16 >>= readMany readKey
      let links ← readListCount elementLimit 8 >>= readMany readU64
      let cost ← readU32
      let evidence ← readU64
      readRequire (hops.length ≤ elementLimit && links.length ≤ elementLimit) .exhausted
        (text "plan restore step exceeds the planning bound")
      pure { dependent, coversFailed, action, replacement, hops
             links := links.map StrongId.mk, cost, evidence := ⟨evidence⟩ }) := by
  simp only [readRestoreStep, bind_assoc]

theorem spends_restoreStep :
    Spends (readRestoreStep elementLimit) fun spent step =>
      (step.hops.length ≤ elementLimit ∧ step.links.length ≤ elementLimit) ∧
        restoreSize step ≤ spent.length := by
  rw [readRestoreStep_eq]
  refine (spends_dependent _).bind ?_
  rintro _ dependent ⟨-, rfl⟩
  refine sound_key.bind fun coversFailed => sound_u8.bind fun raw =>
    sound_key.bind fun replacement => (spends_defined _ _ _).bind ?_
  rintro _ action rfl
  refine (spends_listOf sound_key byteCount_key elementLimit 16).bind fun keys hops hkeys =>
    (spends_listOf sound_u64 byteCount_u64 elementLimit 8).bind fun raws links hraws =>
    sound_u32.bind fun cost => sound_u64.bind fun evidence => (spends_require _ _ _).bind ?_
  rintro _ _ rfl
  refine spends_pure ⟨⟨hkeys.1, (List.length_map _).trans_le hraws.1⟩, ?_⟩
  have hkeysSize := hkeys.2
  have hrawsSize := hraws.2
  simp only [restoreSize, List.length_append, List.length_map, List.length_nil,
    length_flatten_chunks, byteCount_dependent, byteCount_key, byteCount_u8, byteCount_u32,
    byteCount_u64]
  omega

theorem spends_unresolved :
    Spends (readUnresolved elementLimit) fun spent entry =>
      entry.detail.length ≤ elementLimit ∧ unresolvedSize entry ≤ spent.length := by
  refine (spends_dependent _).bind ?_
  rintro _ dependent ⟨-, rfl⟩
  refine sound_key.bind fun coversFailed => sound_u8.bind fun raw =>
    (spends_string elementLimit).bind ?_
  rintro _ detail ⟨hdetail, -, rfl⟩
  refine (spends_defined _ _ _).bind ?_
  rintro _ reason rfl
  refine spends_pure ⟨hdetail, ?_⟩
  simp only [unresolvedSize, List.length_append, List.length_nil, length_flatten_chunks,
    byteCount_dependent, byteCount_key, byteCount_u8, byteCount_string]
  omega

theorem readHead_eq :
    readHead elementLimit = (do
      let tag ← readU8
      readRequire (tag == planFormatTag) .versionMismatch
        (text "reconstruction plan format tag is unsupported")
      let id ← readU64
      let epoch ← readU64
      let boot ← readBoot
      let failed ← readListCount elementLimit 16 >>= readMany readKey
      let fences ← readListCount elementLimit (16 + 8 + 1 + 8 + 8) >>= readMany readFenceStep
      let restores ← readListCount elementLimit (9 + 16 + 1 + 16 + 4) >>=
        readMany (readRestoreStep elementLimit)
      let unresolved ← readListCount elementLimit (9 + 16 + 1) >>=
        readMany (readUnresolved elementLimit)
      let feasibility ← readU8
      pure { id, epoch, boot, failed, fences, restores, unresolved, feasibility }) := by
  simp only [readHead, bind_assoc]

/-- The bounds an accepted head respects, and the bytes it takes. -/
structure Accepted (elementLimit : ℕ) (spent : Bytes) (head : Head) : Prop where
  failed : head.failed.length ≤ elementLimit
  fences : head.fences.length ≤ elementLimit
  restores : head.restores.length ≤ elementLimit
  unresolved : head.unresolved.length ≤ elementLimit
  steps : ∀ step ∈ head.restores, step.hops.length ≤ elementLimit ∧
    step.links.length ≤ elementLimit
  details : ∀ entry ∈ head.unresolved, entry.detail.length ≤ elementLimit
  size : 66 + 16 * head.failed.length + 41 * head.fences.length +
    (head.restores.map fun step => restoreSize step).sum +
    (head.unresolved.map fun entry => unresolvedSize entry).sum ≤ spent.length

theorem spends_head : Spends (readHead elementLimit) (Accepted elementLimit) := by
  rw [readHead_eq]
  refine sound_u8.bind fun tag => (spends_require _ _ _).bind ?_
  rintro _ _ rfl
  refine sound_u64.bind fun id => sound_u64.bind fun epoch => sound_boot.bind fun boot => ?_
  refine (spends_listOf sound_key byteCount_key elementLimit 16).bind fun keys failed hkeys => ?_
  refine (spends_list spends_fenceStep elementLimit _).bind fun fenceBytes fences hfences => ?_
  refine (spends_list spends_restoreStep elementLimit _).bind
    fun restoreBytes restores hrestores => ?_
  refine (spends_list spends_unresolved elementLimit _).bind
    fun unresolvedBytes unresolved hunresolved => ?_
  refine sound_u8.bind fun feasibility => spends_pure ?_
  refine ⟨hkeys.1, hfences.1, hrestores.1, hunresolved.1, hrestores.2.1, hunresolved.2.1, ?_⟩
  have hfailedSize := hkeys.2
  have hfenceSize := hfences.2.2
  have hrestoreSize : 4 + (restores.map fun step => restoreSize step).sum ≤ restoreBytes.length :=
    hrestores.2.2
  have hunresolvedSize : 4 + (unresolved.map fun entry => unresolvedSize entry).sum ≤
      unresolvedBytes.length := hunresolved.2.2
  rw [List.map_const', List.sum_replicate, smul_eq_mul] at hfenceSize
  simp only [List.length_append, List.length_nil, length_flatten_chunks, byteCount_u8,
    byteCount_u64, byteCount_boot]
  omega

/-- The plan that is concluded from a head has its lists. -/
theorem of_conclude {head : Head} {raw : UInt8} {flags : Flags} {bytes rest : Bytes}
    (hread : conclude head raw flags bytes = .ok (plan, rest)) :
    plan.failedGenerations = GenerationVector.canonicalise head.failed ∧
      plan.fences = head.fences ∧ plan.restores = head.restores ∧
      plan.unresolved = head.unresolved := by
  refine (?_ : Returns _ fun read : ReconstructionPlan =>
    read.failedGenerations = GenerationVector.canonicalise head.failed ∧
      read.fences = head.fences ∧ read.restores = head.restores ∧
      read.unresolved = head.unresolved) _ _ _ hread
  simp only [conclude]
  repeat refine Returns.bind fun _ => ?_
  exact returns_pure ⟨rfl, rfl, rfl, rfl⟩

/-- Whatever is decoded respects the bounds, and its full encoding is no longer than what it
was decoded from. -/
theorem of_decode_eq_ok {payload : Bytes} (hdecode : decode payload limits = .ok plan)
    (hfits : payload.length ≤ planWriterLimit) : plan.Transportable limits.maxPlanSteps := by
  obtain ⟨rest, hread⟩ := decode_eq_ok.mp hdecode
  rw [read_eq] at hread
  obtain ⟨head, middle, hhead, hread⟩ := bind_eq_ok.mp hread
  obtain ⟨raw, tail, hraw, hread⟩ := bind_eq_ok.mp hread
  obtain ⟨flags, last, hflags, hconclude⟩ := bind_eq_ok.mp hread
  have hlast := end_of_conclude hconclude
  subst hlast
  obtain ⟨hfailed, hfences, hrestores, hunresolved⟩ := of_conclude hconclude
  have hmiddle : middle.length = 19 := by
    rw [consumes_u8 _ _ _ hraw, consumes_flags _ _ _ hflags]
    rfl
  obtain ⟨spent, rfl, haccepted⟩ := spends_head payload head middle hhead
  have hkeys : plan.failedGenerations.size ≤ head.failed.length := by
    rw [hfailed]
    exact length_sortUnique_le fun key hkey => List.mem_of_mem_filter hkey
  rw [List.length_append, hmiddle] at hfits
  have hsize := haccepted.size
  refine ⟨hkeys.trans haccepted.failed, ?_, ?_, ?_, ?_, ?_, ?_, ?_⟩
  · rw [hfences]
    exact haccepted.fences
  · rw [hrestores]
    exact haccepted.restores
  · rw [hunresolved]
    exact haccepted.unresolved
  · rw [hrestores]
    exact fun step hstep => (haccepted.steps step hstep).1
  · rw [hrestores]
    exact fun step hstep => (haccepted.steps step hstep).2
  · rw [hunresolved]
    exact haccepted.details
  · rw [encodedSize, hfences, hrestores, hunresolved]
    omega

end Accepting

/-- A plan is read back exactly if it respects the bounds. -/
theorem decode_encode_iff (hwidth : limits.maxPlanSteps < 2 ^ 32) (hwellformed : plan.Wellformed) :
    decode plan.encode limits = .ok plan ↔ plan.Transportable limits.maxPlanSteps :=
  ⟨fun hdecode => of_decode_eq_ok hdecode (length_written_le_limit _ _),
    fun htransportable => decode_encode_of_transportable hwidth htransportable hwellformed⟩

end SwitchFailover.Plan.ReconstructionPlan

namespace SwitchFailover.Plan

open SwitchFailover.Core Model

variable {inputs : PlanInputs} {failed : GenerationVector} {plan : ReconstructionPlan}

/-! ## Plans of the planner -/

theorem Planned.limitsValid {referenceMode : Bool}
    (hplanned : Planned inputs failed referenceMode plan) : inputs.limits.validate = .ok () := by
  have hinputs := hplanned.inputsValid
  simp only [PlanInputs.validate, result_bind_eq_ok] at hinputs
  obtain ⟨_, -, _, -, _, -, _, -, hlimits⟩ := hinputs
  exact hlimits

theorem fenceStep_counts (hlimits : inputs.limits.validate = .ok ()) (root : SwitchKey) :
    (fenceStepOf inputs root).closureMembers < 2 ^ 64 ∧
      (fenceStepOf inputs root).omittedDependents < 2 ^ 64 := by
  have hnodes : inputs.limits.maxClosureNodes ≤ hardMaxElements :=
    (Limits.bounded_of_validate hlimits (List.mem_of_getElem? (i := 5) rfl)).2
  have hkeys : (GenerationVector.empty.insert root).keys.length ≤ 1 := by
    by_cases hvalid : root.valid = true
    · simp [GenerationVector.insert, GenerationVector.empty, hvalid]
    · simp [GenerationVector.insert, GenerationVector.empty, hvalid]
  have hbound : max inputs.limits.maxClosureNodes
      (GenerationVector.empty.insert root).keys.length < 2 ^ 64 :=
    lt_of_le_of_lt (max_le_max hnodes hkeys) (by decide)
  obtain ⟨hmembers, homitted⟩ := inputs.snapshot.closure_counts
    (GenerationVector.empty.insert root) inputs.limits
  exact ⟨hmembers.trans_lt hbound, homitted.trans_lt hbound⟩

theorem kind_of_demandPair (hconstructed : inputs.snapshot.Constructed)
    {dependent : DependentRef} {root : SwitchKey}
    (hpair : (dependent, root) ∈
      (demandsOf inputs failed).map fun demand => (demand.dependent, demand.failed)) :
    dependent.kind ≠ .unknown := by
  obtain ⟨demand, hdemand, heq⟩ := List.mem_map.mp hpair
  cases heq
  exact TopologySnapshot.kind_of_mem_closure hconstructed ((mem_demandsOf demand).mp hdemand).2

/-- The planner returns sealed plans with an identity, of dependents the topology knows. -/
theorem Planned.wellformed (hplanned : Planned inputs failed false plan)
    (hconstructed : inputs.snapshot.Constructed) : plan.Wellformed := by
  have hperm := hplanned.demands_perm
  refine ⟨?_, ?_, ?_, ?_, ?_⟩
  · intro step hstep
    rw [hplanned.fences_eq] at hstep
    obtain ⟨root, -, rfl⟩ := List.mem_map.mp hstep
    exact fenceStep_counts hplanned.limitsValid root
  · intro step hstep
    exact kind_of_demandPair hconstructed (hperm.subset
      (List.mem_append_left _ (List.mem_map_of_mem hstep)))
  · intro entry hentry
    exact kind_of_demandPair hconstructed (hperm.subset
      (List.mem_append_right _ (List.mem_map_of_mem hentry)))
  · have hid : plan.id = if inputs.planId.valid then inputs.planId else ⟨1⟩ := by
      rw [hplanned.assembled]
      rfl
    rw [hid]
    split
    · rename_i hvalid
      exact bne_iff_ne.mp hvalid
    · decide
  · rw [hplanned.assembled]
    exact (ReconstructionPlan.computeDigest_planDigest _ _).symm

/-- A plan that was planned under some limits is decoded from its encoding under the same
limits, with every field and the digest it had, exactly if it respects the bound on plan steps
and the limit of the writer. -/
theorem planned_round_trip_iff (hconstructed : inputs.snapshot.Constructed)
    (hreturned : planReconstruction inputs failed = .ok plan) :
    ReconstructionPlan.decode plan.encode inputs.limits = .ok plan ↔
      plan.Transportable inputs.limits.maxPlanSteps := by
  have hplanned := planReconstruction_eq_ok.mp hreturned
  have hsteps : inputs.limits.maxPlanSteps ≤ hardMaxElements :=
    (Limits.bounded_of_validate hplanned.limitsValid (List.mem_of_getElem? (i := 7) rfl)).2
  exact ReconstructionPlan.decode_encode_iff (hsteps.trans_lt (by decide))
    (hplanned.wellformed hconstructed)

namespace Sample

theorem request_constructed : request.snapshot.Constructed := by
  change topology.Constructed
  rw [topology]
  generalize hbuild : TopologySnapshot.build _ _ _ _ _ _ = built
  cases built with
  | error status => exact Or.inl rfl
  | ok snapshot => exact Or.inr ⟨_, _, _, _, _, _, hbuild⟩

/-- The same request under a bound on plan steps that is smaller than some texts. -/
def cramped : PlanInputs := { request with limits := { maxPlanSteps := 32 } }

end Sample

theorem planned_round_trip_answer :
    ReconstructionPlan.decode Sample.answer.encode {} = .ok Sample.answer :=
  (planned_round_trip_iff Sample.request_constructed Sample.planned).mpr
    ⟨by decide +kernel, by decide +kernel, by decide +kernel, by decide +kernel,
      by decide +kernel, by decide +kernel, by decide +kernel, by decide +kernel⟩

/-- The text of the unresolved entry is longer than the bound on plan steps, and the reader
applies that bound to texts too. -/
theorem planned_not_read_back :
    Sample.cramped.limits.validate = .ok () ∧
      ((planReconstruction Sample.cramped Sample.lost).toOption.map fun plan =>
        (plan.restores.length, plan.unresolved.length,
          (ReconstructionPlan.decode plan.encode Sample.cramped.limits).toOption.isSome)) =
        some (2, 1, false) := by
  decide +kernel

end SwitchFailover.Plan
