import SwitchFailover.Runtime.Opening

/-!
# Authority never rests on a fenced generation

The invariant of the authority registry holds in every coordinator that any run
reaches, from any journal: opening establishes it, routine changes keep it, and
the fence part of a declaration keeps it because the sweep comes before the
commit.
-/

namespace SwitchFailover.Runtime

open SwitchFailover.Core Model Plan Persist Library.Effects Library.Transitions

variable {grant : AuthorityGrant} {config : CoordinatorConfig} {process : Process}

variable {env : Env} {disk : Disk} {impl first last : Impl} {fates : Fate → Prop} {scope : Scope}
  {outcome : Except Stop Unit} {subject : SwitchKey}

/-! ## Opening -/

/-- A replayed record leaves the registry alone or restores one fence or one
grant into it. -/
theorem replayRecord_authority (limits : Limits) (lineage : Lineage) (record : Record) :
    (lineage.replayRecord limits record).authority = lineage.authority ∨
      (∃ fence, lineage.authority.restoreFence fence =
        .ok (lineage.replayRecord limits record).authority) ∨
      ∃ grant, lineage.authority.restoreGrant grant =
        .ok (lineage.replayRecord limits record).authority := by
  rw [Lineage.replayRecord]
  split
  · split <;> exact Or.inl rfl
  · split <;> exact Or.inl rfl
  · split
    · rename_i authority hrestore
      obtain ⟨fence, -, hfence⟩ := result_bind_eq_ok.mp hrestore
      exact Or.inr (Or.inl ⟨fence, hfence⟩)
    · exact Or.inl rfl
  · split
    · rename_i authority hrestore
      obtain ⟨grant, -, hgrant⟩ := result_bind_eq_ok.mp hrestore
      exact Or.inr (Or.inr ⟨grant, hgrant⟩)
    · exact Or.inl rfl
  · split <;> exact Or.inl rfl
  · split <;> exact Or.inl rfl
  · exact Or.inl rfl

theorem restored_limits {registry next : AuthorityRegistry}
    (hrestore : registry.restoreGrant grant = .ok next) : next.limits = registry.limits := by
  rw [AuthorityRegistry.restoreGrant, result_bind_eq_ok] at hrestore
  obtain ⟨_, -, hnext⟩ := hrestore
  cases hnext
  rfl

theorem replayAll_dormant (limits : Limits) (records : List Record) :
    (Lineage.replayAll limits records).authority.Dormant ∧
      (Lineage.replayAll limits records).authority.limits = limits := by
  have hreplay : ∀ (records : List Record) (lineage : Lineage),
      lineage.authority.Dormant → lineage.authority.limits = limits →
      (records.foldl (Lineage.replayRecord limits) lineage).authority.Dormant ∧
        (records.foldl (Lineage.replayRecord limits) lineage).authority.limits = limits := by
    intro records
    induction records with
    | nil => exact fun lineage hdormant hlimits => ⟨hdormant, hlimits⟩
    | cons record records ih =>
      intro lineage hdormant hlimits
      rw [List.foldl_cons]
      rcases replayRecord_authority limits lineage record with
        hsame | ⟨fence, hfence⟩ | ⟨grant, hgrant⟩
      · exact ih _ (hsame ▸ hdormant) (hsame ▸ hlimits)
      · refine ih _ (hdormant.restoreFence hfence) ?_
        obtain ⟨-, hnext⟩ := AuthorityRegistry.restoreFence_eq_ok.mp hfence
        rw [hnext]
        exact hlimits
      · exact ih _ (hdormant.restoreGrant hgrant) ((restored_limits hgrant).trans hlimits)
  exact hreplay records _ (AuthorityRegistry.dormant_initial limits) rfl

theorem invalidated_dormant {lineage : Lineage} (hdormant : lineage.authority.Dormant)
    (policy : Policy) :
    (lineage.invalidated policy).Dormant ∧
      (lineage.invalidated policy).limits = lineage.authority.limits := by
  have hstale : lineage.authority.invalidatePreRestart.2.Dormant :=
    hdormant.demote (AuthorityRegistry.demotes_ite (by decide))
  rw [Lineage.invalidated]
  split
  · exact ⟨hstale.demote (AuthorityRegistry.demotes_ite (by decide)), rfl⟩
  · exact ⟨hstale, rfl⟩

/-- Nothing is active in a coordinator that has just been opened. -/
theorem opened_dormant (hopened : Opened config process env disk (.ok ()) impl) :
    impl.authority.Dormant ∧ impl.authority.limits = config.limits ∧
      config.limits.validate = .ok () := by
  cases hopened with
  | started hlimits hdurable =>
    exact ⟨AuthorityRegistry.dormant_initial config.limits, rfl, hlimits⟩
  | restored store trimmed opening outcome last hlimits hdurable hopen hannounced =>
    obtain ⟨_, _, rfl⟩ := hannounced.frame
    obtain ⟨hdormant, hsame⟩ := replayAll_dormant config.limits opening.records
    obtain ⟨hinvalidated, hkept⟩ := invalidated_dormant hdormant config.policy
    exact ⟨hinvalidated, hkept.trans hsame, hlimits⟩

theorem opened_sound (hopened : Opened config process env disk (.ok ()) impl) :
    impl.authority.Sound := by
  obtain ⟨hdormant, hlimits, hvalid⟩ := opened_dormant hopened
  apply hdormant.sound
  rw [hlimits]
  exact Limits.maxAuthorityGrants_le hvalid

/-! ## Calls -/

theorem Routine.sound (hroutine : Routine fates scope first last) (hsound : first.authority.Sound) :
    last.authority.Sound := by
  cases hroutine with
  | mint dependent bound time detail id authority hscope hmint => exact hsound.grant hmint
  | revoke dependent cause detail => exact hsound.revokeDependent dependent cause detail
  | _ => exact hsound

theorem Dies.sound (hdies : Dies fates first last) (hsound : first.authority.Sound) :
    last.authority.Sound := by
  cases hdies with
  | append => exact hsound

/-- The grants active after the sweep are those active before it that are not
bound to the generation. -/
theorem activeUnder_swept (hvalid : subject.valid = true) {id : GrantId} :
    (impl.swept subject).authority.ActiveUnder id grant ↔
      impl.authority.ActiveUnder id grant ∧ subject ∉ grant.bound.keys := by
  have hswept : ∀ key, key ∈ (GenerationVector.empty.insert subject).keys ↔ key = subject := by
    intro key
    simp [GenerationVector.mem_insert, GenerationVector.empty, hvalid]
  constructor
  · intro hactive
    refine ⟨(AuthorityRegistry.activeUnder_map (AuthorityRegistry.demotes_sweep _) hactive).1, ?_⟩
    intro hbound
    exact AuthorityRegistry.fenceGenerations_clears hactive subject hbound
      ((hswept subject).mpr rfl)
  · rintro ⟨⟨hstored, hstate⟩, hunbound⟩
    have hskipped : AuthorityRegistry.boundToAny (GenerationVector.empty.insert subject) grant =
        false := by
      rw [AuthorityRegistry.boundToAny, Bool.and_eq_false_imp]
      intro _
      rw [Bool.eq_false_iff, ne_eq, GenerationVector.intersects_iff]
      rintro ⟨key, hkey, hmem⟩
      rw [hswept] at hmem
      exact hunbound (hmem ▸ hkey)
    refine ⟨?_, hstate⟩
    change (impl.authority.grants.map _)[id]? = some grant
    rw [Std.TreeMap.getElem?_map, hstored, Option.map_some, if_neg]
    rw [hskipped]
    exact Bool.false_ne_true

theorem Fenced.sound {fence : FenceRecord} {authority : AuthorityRegistry}
    (hfenced : Fenced subject impl fence authority) (hsound : impl.authority.Sound) :
    authority.Sound := by
  obtain ⟨record, id, rfl, hcommit⟩ := hfenced.commit
  exact hsound.fence hcommit

theorem FencePart.sound {first : CallState} (hfence : FencePart subject first outcome last)
    (hsound : first.impl.authority.Sound) : last.authority.Sound := by
  cases hfence with
  | deferred hfenced => exact hsound.fenceGenerations _
  | refused status hfenced => exact hsound.fenceGenerations _
  | unwritten fence authority store stop hfenced hstore houtcome =>
    exact hfenced.sound hsound
  | committed fence authority hfenced hwritten =>
    change ((({ first.impl with authority } : Impl).journaled _ _).authority).Sound
    rw [journaled_authority]
    exact hfenced.sound hsound

theorem Performed.sound {operation : Operation}
    (hperformed : Performed impl env operation outcome last) (hsound : impl.authority.Sound) :
    last.authority.Sound :=
  hperformed.preserve (fun impl => impl.authority.Sound) Routine.sound Dies.sound FencePart.sound
    hsound

/-! ## Runs -/

/-- The coordinator's answer is the registry's, for a valid dependent. -/
theorem queryAuthority_hasAuthority {dependent : DependentRef} {time : TimestampNs} :
    (∃ query, impl.queryAuthority dependent time = .ok query ∧ query.hasAuthority = true) ↔
      dependent.valid = true ∧ (impl.authority.query dependent time).hasAuthority = true := by
  simp only [Impl.queryAuthority, result_bind_eq_ok, require_eq_ok, exists_const]
  constructor
  · rintro ⟨query, ⟨hvalid, hquery⟩, hauthority⟩
    cases hquery
    exact ⟨hvalid, hauthority⟩
  · rintro ⟨hvalid, hauthority⟩
    exact ⟨_, ⟨hvalid, rfl⟩, hauthority⟩

theorem reaches_sound (hreaches : World.Reaches disk impl) : impl.authority.Sound :=
  hreaches.preserve (fun impl => impl.authority.Sound) opened_sound Performed.sound

/-- In every reachable coordinator no active grant is bound to a fenced
generation, so that a query finds authority exactly when a grant of the dependent
is active at the time of the query. -/
theorem reachable_authority_unfenced {disk : Disk} {impl : Impl}
    (hreaches : World.Reaches disk impl) :
    (∀ (id : GrantId) (grant : AuthorityGrant), impl.authority.grants[id]? = some grant →
      grant.state = .active → ∀ key ∈ grant.bound.keys, impl.authority.isFenced key = false) ∧
    ∀ (dependent : DependentRef) (time : TimestampNs),
      (∃ query, impl.queryAuthority dependent time = .ok query ∧ query.hasAuthority = true) ↔
        ∃ (id : GrantId) (grant : AuthorityGrant), impl.authority.grants[id]? = some grant ∧
          grant.dependent = dependent ∧ grant.activeAt time = true := by
  have hsound := reaches_sound hreaches
  refine ⟨fun id grant hstored hactive => hsound.unfenced id grant ⟨hstored, hactive⟩, ?_⟩
  intro dependent time
  rw [← hsound.query_hasAuthority dependent time, queryAuthority_hasAuthority]
  refine and_iff_right_of_imp fun hauthority => ?_
  -- an invalid dependent has no authority: active grants name valid ones
  obtain ⟨id, grant, hstored, rfl, hactive⟩ :=
    (hsound.query_hasAuthority dependent time).mp hauthority
  exact (hsound.listed id grant ⟨hstored, AuthorityRegistry.activeAt_state hactive⟩).1

/-- After a failover the replacement carries the path, and the failed switch is
fenced. -/
theorem reachable_authority_unfenced_sample :
    ∃ impl, World.Reaches {} impl ∧ impl.authority.isFenced Sample.switchA = true ∧
      ∃ query, impl.queryAuthority Sample.path 1000 = .ok query ∧
        query.hasAuthority = true := by
  have hrun : (run World.step (.down {})
      (Sample.planned {} ++ [.call (.applyPlan Sample.firstPlan) Sample.calm])).passes
        (fun impl => impl.authority.isFenced Sample.switchA &&
          (impl.authority.grants[(⟨2⟩ : GrantId)]?).any fun grant =>
            grant.dependent == Sample.path && grant.activeAt 1000) = true := by
    decide +kernel
  obtain ⟨impl, hup, htest⟩ := World.up_of_passes hrun
  rw [Bool.and_eq_true, Option.any_eq_true] at htest
  obtain ⟨hfenced, grant, hstored, hgrant⟩ := htest
  rw [Bool.and_eq_true, beq_iff_eq] at hgrant
  have hreaches : World.Reaches {} impl := ⟨_, hup⟩
  exact ⟨impl, hreaches, hfenced, ((reachable_authority_unfenced hreaches).2 _ _).mpr
    ⟨⟨2⟩, grant, hstored, hgrant.1, hgrant.2⟩⟩

end SwitchFailover.Runtime
