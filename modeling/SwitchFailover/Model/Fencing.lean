import SwitchFailover.Model.Authority

/-!
# No authority on a fenced generation

The registry keeps one invariant: an active grant is bound to no fenced
generation, and it is listed under its own dependent and under no other.  Grant
identities come from a counter that wraps, and a grant is stored only when its
identity is free; that a new identity is never one of an active grant follows
from the bound on the number of stored grants.
-/

namespace SwitchFailover.Model.AuthorityRegistry

open SwitchFailover.Core

variable {registry next : AuthorityRegistry} {bound : GenerationVector} {dependent : DependentRef}
  {epoch : CoordinatorEpoch} {boot : BootIncarnation} {ttl first : UInt64} {time : TimestampNs}
  {detail : Bytes} {id : GrantId} {count : ℕ} {change : GrantId → AuthorityGrant → AuthorityGrant}
  {record : FenceRecord}

/-- An active grant and the identity it is stored under. -/
def ActiveUnder (registry : AuthorityRegistry) (id : GrantId) (grant : AuthorityGrant) : Prop :=
  registry.grants[id]? = some grant ∧ grant.state = .active

/-! ## Specification of granting -/

theorem requireUnfenced_eq_ok {value : Unit} :
    registry.requireUnfenced bound = .ok value ↔
      ∀ key ∈ bound.keys, registry.isFenced key = false := by
  rw [requireUnfenced]
  cases hfound : bound.keys.find? registry.isFenced with
  | none => simpa using hfound
  | some key =>
    simp only [refuse, reduceCtorEq, false_iff, not_forall]
    exact ⟨key, List.mem_of_find?_eq_some hfound, by simp [List.find?_some hfound]⟩

theorem checkGrant_eq_ok :
    registry.checkGrant dependent bound epoch boot ttl = .ok () ↔
      dependent.valid = true ∧ bound.isEmpty = false ∧ epoch.valid = true ∧
        boot.valid = true ∧ ttl ≠ 0 ∧
        (∀ key ∈ bound.keys, registry.isFenced key = false) ∧
        registry.grants.size < registry.limits.maxAuthorityGrants := by
  rw [checkGrant]
  simp only [result_bind_eq_ok, require_eq_ok, exists_and_left, exists_const,
    requireWithin_eq_ok, requireUnfenced_eq_ok]
  simp [and_assoc]

theorem grant_eq_ok :
    registry.grant dependent bound epoch boot time ttl detail = .ok (id, next) ↔
      registry.checkGrant dependent bound epoch boot ttl = .ok () ∧ id = ⟨registry.nextGrant⟩ ∧
        next = registry.enter (registry.minted dependent bound epoch boot time ttl detail) := by
  rw [grant, result_bind_eq_ok]
  simp only [pure, Except.pure, Except.ok.injEq, Prod.mk.injEq]
  constructor
  · intro ⟨_, hcheck, hid, hnext⟩
    exact ⟨hcheck, hid.symm, hnext.symm⟩
  · intro ⟨hcheck, hid, hnext⟩
    exact ⟨(), hcheck, hid.symm, hnext.symm⟩

/-! ## Identities -/

/-- The grants minted since the registry was set up have consecutive identities,
all of them stored, and every active grant is one of them. -/
structure MintedWindow (registry : AuthorityRegistry) (first : UInt64) (count : ℕ) : Prop where
  small : count ≤ 2 ^ 64
  upTo : registry.nextGrant = first + UInt64.ofNat count
  stored : ∀ index < count, (⟨first + UInt64.ofNat index⟩ : GrantId) ∈ registry.grants
  covers : ∀ id grant, registry.ActiveUnder id grant →
    ∃ index < count, id = ⟨first + UInt64.ofNat index⟩

theorem add_ofNat_inj {left right : ℕ} (hleft : left < 2 ^ 64) (hright : right < 2 ^ 64)
    (heq : first + UInt64.ofNat left = first + UInt64.ofNat right) : left = right := by
  have hsame : UInt64.ofNat left = UInt64.ofNat right := by
    exact add_left_cancel heq
  have hvalue := congrArg UInt64.toNat hsame
  rw [UInt64.toNat_ofNat_of_lt' hleft, UInt64.toNat_ofNat_of_lt' hright] at hvalue
  exact hvalue

/-- Distinct stored identities are at most as many as the stored grants. -/
theorem MintedWindow.count_le_size (hwindow : registry.MintedWindow first count) :
    count ≤ registry.grants.size := by
  let identities : List GrantId :=
    (List.range count).map fun index => ⟨first + UInt64.ofNat index⟩
  have hnodup : identities.Nodup := by
    apply List.Nodup.map_on _ List.nodup_range
    intro left hleft right hright heq
    have hsmall := hwindow.small
    exact add_ofNat_inj (lt_of_lt_of_le (List.mem_range.mp hleft) hsmall)
      (lt_of_lt_of_le (List.mem_range.mp hright) hsmall) (congrArg StrongId.raw heq)
  have hsubset : identities ⊆ registry.grants.keys := by
    intro id hid
    obtain ⟨index, hindex, rfl⟩ := List.mem_map.mp hid
    exact Std.TreeMap.mem_keys.mpr (hwindow.stored index (List.mem_range.mp hindex))
  have hlength := (hnodup.subperm hsubset).length_le
  rw [Std.TreeMap.length_keys] at hlength
  simpa [identities] using hlength

/-- While there is room, the next identity belongs to no active grant. -/
theorem MintedWindow.next_not_active (hwindow : registry.MintedWindow first count)
    (hroom : registry.grants.size < 2 ^ 64) (grant : AuthorityGrant) :
    ¬registry.ActiveUnder ⟨registry.nextGrant⟩ grant := by
  intro hactive
  obtain ⟨index, hindex, heq⟩ := hwindow.covers _ _ hactive
  have hcount : count < 2 ^ 64 := lt_of_le_of_lt hwindow.count_le_size hroom
  have hraw : first + UInt64.ofNat count = first + UInt64.ofNat index := by
    rw [← hwindow.upTo]
    exact congrArg StrongId.raw heq
  have hsame := add_ofNat_inj hcount (lt_trans hindex hcount) hraw
  omega

/-! ## The invariant -/

structure Sound (registry : AuthorityRegistry) : Prop where
  limit : registry.limits.maxAuthorityGrants ≤ hardMaxElements
  unfenced : ∀ id grant, registry.ActiveUnder id grant →
    ∀ key ∈ grant.bound.keys, registry.isFenced key = false
  listedOwn : ∀ dependent id grant, id ∈ registry.indexOf dependent →
    registry.ActiveUnder id grant → grant.dependent = dependent
  listed : ∀ id grant, registry.ActiveUnder id grant →
    grant.dependent.valid = true ∧ id ∈ registry.indexOf grant.dependent
  indexed : ∀ dependent, ∀ id ∈ registry.indexOf dependent, id ∈ registry.grants
  window : ∃ first count, registry.MintedWindow first count

/-- Without active grants only the index has to be checked. -/
theorem sound_of_no_active (hlimit : registry.limits.maxAuthorityGrants ≤ hardMaxElements)
    (hnone : ∀ id grant, ¬registry.ActiveUnder id grant)
    (hindexed : ∀ dependent, ∀ id ∈ registry.indexOf dependent, id ∈ registry.grants) :
    registry.Sound where
  limit := hlimit
  unfenced id grant hactive := absurd hactive (hnone id grant)
  listedOwn _ id grant _ hactive := absurd hactive (hnone id grant)
  listed id grant hactive := absurd hactive (hnone id grant)
  indexed := hindexed
  window := ⟨registry.nextGrant, 0, Nat.zero_le _, by simp, by simp,
    fun id grant hactive => absurd hactive (hnone id grant)⟩

/-! ## Granting keeps the invariant -/

section Enter

variable {grant : AuthorityGrant}

theorem indexOf_enter (dependent : DependentRef) :
    (registry.enter grant).indexOf dependent =
      if dependent = grant.dependent then registry.indexOf dependent ++ [grant.id]
      else registry.indexOf dependent := by
  simp only [indexOf, enter, Std.TreeMap.getElem?_insert, Std.LawfulEqCmp.compare_eq_iff_eq]
  by_cases hsame : dependent = grant.dependent
  · simp [hsame]
  · simp [hsame, Ne.symm hsame]

/-- The active grants after an entry are those before it and, when its identity
was free, the new one. -/
theorem activeUnder_enter {stored : AuthorityGrant}
    (hactive : (registry.enter grant).ActiveUnder id stored) :
    registry.ActiveUnder id stored ∨
      (id = grant.id ∧ stored = grant ∧ grant.id ∉ registry.grants) := by
  obtain ⟨hstored, hstate⟩ := hactive
  simp only [enter, Std.TreeMap.getElem?_insertIfNew, Std.LawfulEqCmp.compare_eq_iff_eq]
    at hstored
  split at hstored
  · rename_i hnew
    exact Or.inr ⟨hnew.1.symm, (Option.some.inj hstored).symm, hnew.2⟩
  · exact Or.inl ⟨hstored, hstate⟩

theorem mem_enter (hmem : id = grant.id ∨ id ∈ registry.grants) :
    id ∈ (registry.enter grant).grants := by
  rw [enter, Std.TreeMap.mem_insertIfNew, Std.LawfulEqCmp.compare_eq_iff_eq]
  exact hmem.imp_left Eq.symm

theorem MintedWindow.enter (hwindow : registry.MintedWindow first count)
    (hroom : registry.grants.size < 2 ^ 64) (hid : grant.id = ⟨registry.nextGrant⟩) :
    (registry.enter grant).MintedWindow first (count + 1) where
  small := by
    have hcount := hwindow.count_le_size
    omega
  upTo := by
    change registry.nextGrant + 1 = _
    rw [hwindow.upTo, UInt64.ofNat_add, ← add_assoc]
    rfl
  stored := by
    intro index hindex
    apply mem_enter
    rcases Nat.lt_succ_iff_lt_or_eq.mp hindex with hlt | heq
    · exact Or.inr (hwindow.stored index hlt)
    · left
      rw [hid, heq, hwindow.upTo]
  covers := by
    intro id stored hactive
    rcases activeUnder_enter hactive with hold | ⟨hnew, -, -⟩
    · obtain ⟨index, hindex, heq⟩ := hwindow.covers id stored hold
      exact ⟨index, Nat.lt_succ_of_lt hindex, heq⟩
    · exact ⟨count, Nat.lt_succ_self count, by rw [hnew, hid, hwindow.upTo]⟩

/-- The central case: a new grant on unfenced generations. -/
theorem Sound.enter (hsound : registry.Sound) (hid : grant.id = ⟨registry.nextGrant⟩)
    (hvalid : grant.dependent.valid = true)
    (hunfenced : ∀ key ∈ grant.bound.keys, registry.isFenced key = false)
    (hroom : registry.grants.size < registry.limits.maxAuthorityGrants) :
    (registry.enter grant).Sound := by
  obtain ⟨first, count, hwindow⟩ := hsound.window
  have hspace : registry.grants.size < 2 ^ 64 := by
    have hlimit := hsound.limit
    have hhard : hardMaxElements < 2 ^ 64 := by decide
    omega
  have hfree := hwindow.next_not_active hspace
  refine ⟨hsound.limit, ?_, ?_, ?_, ?_, first, count + 1, hwindow.enter hspace hid⟩
  · intro id stored hactive key hkey
    rcases activeUnder_enter hactive with hold | ⟨-, rfl, -⟩
    · exact hsound.unfenced id stored hold key hkey
    · exact hunfenced key hkey
  · intro dependent id stored hlisted hactive
    rw [indexOf_enter] at hlisted
    rcases activeUnder_enter hactive with hold | ⟨rfl, rfl, hmissing⟩
    · -- An older active grant does not have the identity that was appended.
      split at hlisted
      · rcases List.mem_append.mp hlisted with hbefore | hadded
        · exact hsound.listedOwn dependent id stored hbefore hold
        · rw [List.mem_singleton.mp hadded, hid] at hold
          exact absurd hold (hfree stored)
      · exact hsound.listedOwn dependent id stored hlisted hold
    · split at hlisted
      · rename_i hsame
        exact hsame.symm
      · exact absurd (hsound.indexed dependent _ hlisted) hmissing
  · intro id stored hactive
    rw [indexOf_enter]
    rcases activeUnder_enter hactive with hold | ⟨rfl, rfl, -⟩
    · obtain ⟨hvalidOld, hindex⟩ := hsound.listed id stored hold
      refine ⟨hvalidOld, ?_⟩
      split
      · exact List.mem_append_left _ hindex
      · exact hindex
    · exact ⟨hvalid, by simp⟩
  · intro dependent id hlisted
    rw [indexOf_enter] at hlisted
    apply mem_enter
    split at hlisted
    · rcases List.mem_append.mp hlisted with hbefore | hadded
      · exact Or.inr (hsound.indexed dependent id hbefore)
      · exact Or.inl (List.mem_singleton.mp hadded)
    · exact Or.inr (hsound.indexed dependent id hlisted)

end Enter

theorem Sound.grant (hsound : registry.Sound)
    (hgrant : registry.grant dependent bound epoch boot time ttl detail = .ok (id, next)) :
    next.Sound := by
  obtain ⟨hcheck, -, rfl⟩ := grant_eq_ok.mp hgrant
  obtain ⟨hvalid, -, -, -, -, hunfenced, hroom⟩ := checkGrant_eq_ok.mp hcheck
  exact hsound.enter rfl hvalid hunfenced hroom

/-! ## Withdrawal keeps the invariant -/

/-- A pass over the grants that makes no grant active and leaves active ones as
they are. -/
structure Demotes (change : GrantId → AuthorityGrant → AuthorityGrant) : Prop where
  keeps : ∀ id grant, (change id grant).state = .active → change id grant = grant

theorem activeUnder_map (hdemotes : Demotes change) {grant : AuthorityGrant}
    (hactive : { registry with grants := registry.grants.map change }.ActiveUnder id grant) :
    registry.ActiveUnder id grant ∧ change id grant = grant := by
  obtain ⟨hstored, hstate⟩ := hactive
  simp only [Std.TreeMap.getElem?_map, Option.map_eq_some_iff] at hstored
  obtain ⟨before, hbefore, rfl⟩ := hstored
  have hsame := hdemotes.keeps id before hstate
  rw [hsame] at hstate ⊢
  exact ⟨⟨hbefore, hstate⟩, hsame⟩

theorem Sound.demote (hsound : registry.Sound) (hdemotes : Demotes change) :
    { registry with grants := registry.grants.map change }.Sound := by
  obtain ⟨first, count, hwindow⟩ := hsound.window
  refine ⟨hsound.limit, ?_, ?_, ?_, ?_, first, count, hwindow.small, hwindow.upTo, ?_, ?_⟩
  · intro id grant hactive
    exact hsound.unfenced id grant (activeUnder_map hdemotes hactive).1
  · intro dependent id grant hlisted hactive
    exact hsound.listedOwn dependent id grant hlisted (activeUnder_map hdemotes hactive).1
  · intro id grant hactive
    exact hsound.listed id grant (activeUnder_map hdemotes hactive).1
  · intro dependent id hlisted
    exact Std.TreeMap.mem_map.mpr (hsound.indexed dependent id hlisted)
  · intro index hindex
    exact Std.TreeMap.mem_map.mpr (hwindow.stored index hindex)
  · intro id grant hactive
    exact hwindow.covers id grant (activeUnder_map hdemotes hactive).1

/-- Every conditional withdrawal is a demotion, whatever it withdraws. -/
theorem demotes_ite {applies : GrantId → AuthorityGrant → Bool} {state : GrantState}
    {cause : RevocationCause} (hstate : state ≠ .active) :
    Demotes fun id grant =>
      if applies id grant then { grant with state := state, cause := cause, detail := detail }
      else grant where
  keeps := by
    intro id grant hactive
    by_cases hskip : applies id grant = true
    · rw [if_pos hskip] at hactive
      exact absurd hactive hstate
    · rw [if_neg hskip]

theorem demotes_sweep (generations : GenerationVector) :
    Demotes fun _ grant => if boundToAny generations grant then
      { grant with state := .fenced, cause := .fence
                   detail := text "a bound switch generation was fenced" } else grant :=
  demotes_ite (by decide)

theorem Sound.fenceGenerations (hsound : registry.Sound) (generations : GenerationVector) :
    (registry.fenceGenerations generations).2.Sound :=
  hsound.demote (demotes_sweep generations)

theorem Sound.revokeDependent (hsound : registry.Sound) (dependent : DependentRef)
    (cause : RevocationCause) (detail : Bytes) :
    (registry.revokeDependent dependent cause detail).2.Sound :=
  hsound.demote (demotes_ite (by decide))

/-- After the sweep no active grant is bound to a swept generation. -/
theorem fenceGenerations_clears {generations : GenerationVector} {grant : AuthorityGrant}
    (hactive : (registry.fenceGenerations generations).2.ActiveUnder id grant) :
    ∀ key ∈ grant.bound.keys, key ∉ generations.keys := by
  obtain ⟨⟨-, hstate⟩, hsame⟩ := activeUnder_map (demotes_sweep generations) hactive
  intro key hkey hswept
  have hbound : boundToAny generations grant = true := by
    simp only [boundToAny, hstate, beq_self_eq_true, Bool.true_and]
    exact (grant.bound.intersects_iff generations).mpr ⟨key, hkey, hswept⟩
  rw [if_pos hbound] at hsame
  rw [← hsame] at hstate
  cases hstate

/-! ## Fencing keeps the invariant -/

theorem commitFence_eq_ok {id : FenceId} :
    registry.commitFence record = .ok (id, next) ↔
      record.subject.valid = true ∧ record.reason.isEmpty = false ∧
        registry.isFenced record.subject = false ∧
        registry.fences.size < registry.limits.maxFences ∧
        id = ⟨registry.nextFence⟩ ∧
        next = { registry with
          nextFence := registry.nextFence + 1
          fences := registry.fences.insert record.subject
            { record with
              id := ⟨registry.nextFence⟩
              reason := boundedMessage record.reason } } := by
  rw [commitFence]
  simp only [result_bind_eq_ok, require_eq_ok, requireWithin_eq_ok, exists_and_left,
    exists_const, Bool.not_eq_true', pure, Except.pure, Except.ok.injEq, Prod.mk.injEq]
  constructor
  · rintro ⟨hvalid, hreason, hfree, hroom, hid, hnext⟩
    exact ⟨hvalid, hreason, hfree, hroom, hid.symm, hnext.symm⟩
  · rintro ⟨hvalid, hreason, hfree, hroom, hid, hnext⟩
    exact ⟨hvalid, hreason, hfree, hroom, hid.symm, hnext.symm⟩

/-- Only the subject becomes fenced. -/
theorem isFenced_commitFence {id : FenceId}
    (hcommit : registry.commitFence record = .ok (id, next)) (key : SwitchKey) :
    next.isFenced key = (decide (key = record.subject) || registry.isFenced key) := by
  obtain ⟨-, -, -, -, -, rfl⟩ := commitFence_eq_ok.mp hcommit
  simp only [isFenced, Std.TreeMap.contains_insert]
  congr 1
  rw [Bool.eq_iff_iff, beq_iff_eq, Std.LawfulEqCmp.compare_eq_iff_eq, decide_eq_true_eq]
  exact eq_comm

/-- A fence may be committed once no active grant is bound to its subject. -/
theorem Sound.commitFence (hsound : registry.Sound) {id : FenceId}
    (hcommit : registry.commitFence record = .ok (id, next))
    (hclear : ∀ id grant, registry.ActiveUnder id grant → record.subject ∉ grant.bound.keys) :
    next.Sound := by
  have hfenced := isFenced_commitFence hcommit
  obtain ⟨-, -, -, -, -, rfl⟩ := commitFence_eq_ok.mp hcommit
  obtain ⟨first, count, hwindow⟩ := hsound.window
  refine ⟨hsound.limit, ?_, hsound.listedOwn, hsound.listed, hsound.indexed, first, count,
    hwindow.small, hwindow.upTo, hwindow.stored, hwindow.covers⟩
  intro grantId grant hactive key hkey
  rw [hfenced, hsound.unfenced grantId grant hactive key hkey, Bool.or_false,
    decide_eq_false_iff_not]
  rintro rfl
  exact hclear grantId grant hactive hkey

/-- The sweep followed by the commit: the order fencing relies on. -/
theorem Sound.fence (hsound : registry.Sound) {id : FenceId} (hcommit : (registry.fenceGenerations
      (GenerationVector.empty.insert record.subject)).2.commitFence record = .ok (id, next)) :
    next.Sound := by
  apply (hsound.fenceGenerations _).commitFence hcommit
  intro grantId grant hactive hmem
  apply fenceGenerations_clears hactive _ hmem
  have hvalid := (commitFence_eq_ok.mp hcommit).1
  simp [hvalid]

/-! ## Restoring -/

/-- What restored lineage looks like: nothing is active, and the index is
complete. -/
structure Dormant (registry : AuthorityRegistry) : Prop where
  inactive : ∀ id grant, ¬registry.ActiveUnder id grant
  indexed : ∀ dependent, ∀ id ∈ registry.indexOf dependent, id ∈ registry.grants

theorem dormant_initial (limits : Limits) : ({ limits } : AuthorityRegistry).Dormant where
  inactive id grant hactive := by simp [ActiveUnder] at hactive
  indexed dependent id hlisted := by simp [indexOf] at hlisted

theorem Dormant.demote (hdormant : registry.Dormant) (hdemotes : Demotes change) :
    { registry with grants := registry.grants.map change }.Dormant where
  inactive id grant hactive := hdormant.inactive id grant (activeUnder_map hdemotes hactive).1
  indexed dependent id hlisted := Std.TreeMap.mem_map.mpr (hdormant.indexed dependent id hlisted)

theorem restoreFence_eq_ok {value : FenceRecord} :
    registry.restoreFence value = .ok next ↔ value.subject.valid = true ∧ next = { registry with
        fences := registry.fences.insert value.subject value
        nextFence := if value.id.raw ≥ registry.nextFence then value.id.raw + 1
          else registry.nextFence } := by
  rw [restoreFence, result_bind_eq_ok]
  simp only [require_eq_ok, exists_and_left, exists_const, pure, Except.pure, Except.ok.injEq]
  exact and_congr_right fun _ => eq_comm

theorem Dormant.restoreFence (hdormant : registry.Dormant) {value : FenceRecord}
    (hrestore : registry.restoreFence value = .ok next) : next.Dormant := by
  obtain ⟨-, rfl⟩ := restoreFence_eq_ok.mp hrestore
  exact ⟨hdormant.inactive, hdormant.indexed⟩

theorem mem_listOnce {index : List GrantId} {other : GrantId} (hmem : other ∈ listOnce index id) :
    other ∈ index ∨ other = id := by
  rw [listOnce] at hmem
  split at hmem
  · exact Or.inl hmem
  · simpa using hmem

/-- A restored grant comes back stale, so it is never active. -/
theorem Dormant.restoreGrant (hdormant : registry.Dormant) {value : AuthorityGrant}
    (hrestore : registry.restoreGrant value = .ok next) : next.Dormant := by
  rw [AuthorityRegistry.restoreGrant, result_bind_eq_ok] at hrestore
  obtain ⟨_, -, hnext⟩ := hrestore
  cases hnext
  constructor
  · rintro id grant ⟨hstored, hstate⟩
    simp only [Std.TreeMap.getElem?_insert] at hstored
    split at hstored
    · cases hstored
      cases hstate
    · exact hdormant.inactive id grant ⟨hstored, hstate⟩
  · intro dependent id hlisted
    rw [Std.TreeMap.mem_insert, Std.LawfulEqCmp.compare_eq_iff_eq]
    rw [indexOf, Std.TreeMap.getElem?_insert] at hlisted
    split at hlisted
    · rcases mem_listOnce hlisted with hbefore | hadded
      · exact Or.inr (hdormant.indexed _ id hbefore)
      · exact Or.inl hadded.symm
    · exact Or.inr (hdormant.indexed dependent id hlisted)

theorem Dormant.sound (hdormant : registry.Dormant)
    (hlimit : registry.limits.maxAuthorityGrants ≤ hardMaxElements) : registry.Sound :=
  sound_of_no_active hlimit hdormant.inactive hdormant.indexed

/-! ## What a query answers -/

/-- The scan over part of an index. -/
theorem foldl_visitGrant (registry : AuthorityRegistry) (time : TimestampNs)
    (ids : List GrantId) (scan : QueryScan) :
    ((ids.foldl (registry.visitGrant time) scan).activeGrants ≠ [] ↔ scan.activeGrants ≠ [] ∨
        ∃ id ∈ ids, ∃ grant, registry.grants[id]? = some grant ∧ grant.activeAt time = true) ∧
    ∀ key ∈ (ids.foldl (registry.visitGrant time) scan).bound.keys,
      key ∈ scan.bound.keys ∨ ∃ id ∈ ids, ∃ grant,
        registry.grants[id]? = some grant ∧ grant.activeAt time = true ∧
          key ∈ grant.bound.keys := by
  induction ids generalizing scan with
  | nil => simp
  | cons id ids ih =>
    obtain ⟨hactive, hbound⟩ := ih (registry.visitGrant time scan id)
    rw [List.foldl_cons]
    refine ⟨hactive.trans ?_, ?_⟩
    · cases hstored : registry.grants[id]? with
      | none => simp [visitGrant, hstored]
      | some grant =>
        by_cases hnow : grant.activeAt time = true
        · simp [visitGrant, hstored, hnow]
        · have hsame : (scan.visitWithdrawn id grant).activeGrants = scan.activeGrants := by
            unfold QueryScan.visitWithdrawn
            cases grant.state <;> rfl
          simp [visitGrant, hstored, hnow, hsame]
    · intro key hkey
      rcases hbound key hkey with hscan | ⟨other, hother, hgrant⟩
      · cases hstored : registry.grants[id]? with
        | none =>
          simp only [visitGrant, hstored] at hscan
          exact Or.inl hscan
        | some grant =>
          by_cases hnow : grant.activeAt time = true
          · simp only [visitGrant, hstored, hnow, if_true, GenerationVector.mem_united]
              at hscan
            rcases hscan with hscan | hgrant
            · exact Or.inl hscan
            · exact Or.inr ⟨id, List.mem_cons_self, grant, hstored, hnow, hgrant⟩
          · have hsame : (scan.visitWithdrawn id grant).bound = scan.bound := by
              unfold QueryScan.visitWithdrawn
              cases grant.state <;> rfl
            simp only [visitGrant, hstored, hnow] at hscan
            exact Or.inl (hsame ▸ hscan)
      · exact Or.inr ⟨other, List.mem_cons_of_mem _ hother, hgrant⟩

theorem activeAt_state {grant : AuthorityGrant} (hactive : grant.activeAt time = true) :
    grant.state = .active := by
  simp only [AuthorityGrant.activeAt, Bool.and_eq_true, beq_iff_eq] at hactive
  exact hactive.1.1.1

/-- In a sound registry a query finds authority exactly when some grant of the
dependent is active: no active grant is ever blocked by a fence. -/
theorem Sound.query_hasAuthority (hsound : registry.Sound) (dependent : DependentRef)
    (time : TimestampNs) :
    (registry.query dependent time).hasAuthority = true ↔
      ∃ (id : GrantId) (grant : AuthorityGrant), registry.grants[id]? = some grant ∧
        grant.dependent = dependent ∧ grant.activeAt time = true := by
  have hscan := foldl_visitGrant registry time (registry.indexOf dependent) {}
  have hunblocked : ((registry.indexOf dependent).foldl (registry.visitGrant time)
      {}).bound.keys.filter registry.isFenced = [] := by
    rw [List.filter_eq_nil_iff]
    intro key hkey
    rcases hscan.2 key hkey with hnone | ⟨id, -, grant, hstored, hactive, hbound⟩
    · simp [GenerationVector.empty] at hnone
    · rw [hsound.unfenced id grant ⟨hstored, activeAt_state hactive⟩ key hbound]
      simp
  have hlisted : (∃ id ∈ registry.indexOf dependent, ∃ grant,
        registry.grants[id]? = some grant ∧ grant.activeAt time = true) ↔
      ∃ (id : GrantId) (grant : AuthorityGrant), registry.grants[id]? = some grant ∧
        grant.dependent = dependent ∧ grant.activeAt time = true := by
    constructor
    · rintro ⟨id, hid, grant, hstored, hactive⟩
      exact ⟨id, grant, hstored,
        hsound.listedOwn dependent id grant hid ⟨hstored, activeAt_state hactive⟩, hactive⟩
    · rintro ⟨id, grant, hstored, rfl, hactive⟩
      exact ⟨id, (hsound.listed id grant ⟨hstored, activeAt_state hactive⟩).2, grant, hstored,
        hactive⟩
  rw [← hlisted, query]
  split
  · rename_i hempty
    rw [List.isEmpty_iff] at hempty
    simp [hempty]
  · simp only [hunblocked, List.isEmpty_nil, Bool.and_true, Bool.not_eq_true',
      List.isEmpty_eq_false_iff]
    rw [hscan.1]
    simp

end SwitchFailover.Model.AuthorityRegistry
