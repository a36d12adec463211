import SwitchFailover.Library.Transitions
import SwitchFailover.Model.Fencing

/-!
# The lifecycle of grants and fences

Over every sequence of operations of the registry fences stay and withdrawn grants stay
withdrawn.  Restoring may replace a fence record or a grant, but it restores a grant as
stale, and minting never overwrites a grant that is stored.
-/

namespace SwitchFailover.Model

open SwitchFailover.Core Library.Transitions

variable {id : GrantId} {key : SwitchKey} {record : FenceRecord} {registry : AuthorityRegistry}

/-- The operations that change a registry, with their arguments. -/
inductive RegistryOperation
  | grant (dependent : DependentRef) (bound : GenerationVector) (epoch : CoordinatorEpoch)
      (boot : BootIncarnation) (now : TimestampNs) (ttl : UInt64) (detail : Bytes)
  | revoke (id : GrantId) (cause : RevocationCause) (detail : Bytes)
  | fenceGenerations (generations : GenerationVector)
  | revokeDependent (dependent : DependentRef) (cause : RevocationCause) (detail : Bytes)
  | invalidatePreRestart
  | expireDue (now : TimestampNs)
  | withdrawAll (cause : RevocationCause) (detail : Bytes)
  | commitFence (record : FenceRecord)
  | restoreGrant (value : AuthorityGrant)
  | restoreFence (value : FenceRecord)

namespace AuthorityRegistry

/-- The registry after an operation; one that is refused changes nothing. -/
def perform (registry : AuthorityRegistry) : RegistryOperation → AuthorityRegistry
  | .grant dependent bound epoch boot now ttl detail =>
      match registry.grant dependent bound epoch boot now ttl detail with
      | .ok (_, next) => next
      | .error _ => registry
  | .revoke id cause detail =>
      match registry.revoke id cause detail with
      | .ok next => next
      | .error _ => registry
  | .fenceGenerations generations => (registry.fenceGenerations generations).2
  | .revokeDependent dependent cause detail => (registry.revokeDependent dependent cause detail).2
  | .invalidatePreRestart => registry.invalidatePreRestart.2
  | .expireDue now => (registry.expireDue now).2
  | .withdrawAll cause detail => (registry.withdrawAll cause detail).2
  | .commitFence record =>
      match registry.commitFence record with
      | .ok (_, next) => next
      | .error _ => registry
  | .restoreGrant value =>
      match registry.restoreGrant value with
      | .ok next => next
      | .error _ => registry
  | .restoreFence value =>
      match registry.restoreFence value with
      | .ok next => next
      | .error _ => registry

/-- What time may do to a registry: a fenced generation stays fenced, and a grant that is
not active stays stored and does not become active. -/
structure Ages (before after : AuthorityRegistry) : Prop where
  fenced : ∀ key, before.isFenced key = true → after.isFenced key = true
  withdrawn : ∀ (id : GrantId) (grant : AuthorityGrant), before.grants[id]? = some grant →
    grant.state ≠ .active →
      ∃ later, after.grants[id]? = some later ∧ later.state ≠ .active

section Ages

variable {before middle after next : AuthorityRegistry}

theorem Ages.refl (registry : AuthorityRegistry) : Ages registry registry :=
  ⟨fun _ hfenced => hfenced, fun _ grant hgrant hstate => ⟨grant, hgrant, hstate⟩⟩

theorem Ages.trans (hfirst : Ages before middle) (hlast : Ages middle after) :
    Ages before after := by
  refine ⟨fun key hfenced => hlast.fenced key (hfirst.fenced key hfenced), ?_⟩
  intro id grant hgrant hstate
  obtain ⟨later, hlater, hwithdrawn⟩ := hfirst.withdrawn id grant hgrant hstate
  exact hlast.withdrawn id later hlater hwithdrawn

/-- A pass over the grants that makes none of them active. -/
theorem ages_map {change : GrantId → AuthorityGrant → AuthorityGrant} (hdemotes : Demotes change) :
    Ages registry { registry with grants := registry.grants.map change } := by
  refine ⟨fun _ hfenced => hfenced, fun id grant hgrant hstate => ?_⟩
  refine ⟨change id grant, ?_, fun hactive => ?_⟩
  · rw [Std.TreeMap.getElem?_map, hgrant]
    rfl
  · rw [hdemotes.keeps id grant hactive] at hactive
    exact hstate hactive

/-- Replacing one grant by a withdrawn one. -/
theorem ages_insert {grant : AuthorityGrant} (hstate : grant.state ≠ .active)
    (hfences : next.fences = registry.fences)
    (hgrants : next.grants = registry.grants.insert id grant) : Ages registry next := by
  refine ⟨fun key hfenced => ?_, fun other stored hstored hwithdrawn => ?_⟩
  · rwa [isFenced, hfences]
  · rw [hgrants, Std.TreeMap.getElem?_insert]
    split
    · exact ⟨grant, rfl, hstate⟩
    · exact ⟨stored, hstored, hwithdrawn⟩

/-- One more fence record. -/
theorem ages_fence (hfences : next.fences = registry.fences.insert key record)
    (hgrants : next.grants = registry.grants) : Ages registry next := by
  refine ⟨fun other hfenced => ?_, fun id grant hgrant hstate => ⟨grant, ?_, hstate⟩⟩
  · rw [isFenced] at hfenced
    rw [isFenced, hfences, Std.TreeMap.contains_insert, hfenced, Bool.or_true]
  · rwa [hgrants]

theorem withdrawnState_ne_active (cause : RevocationCause) : withdrawnState cause ≠ .active := by
  cases cause <;> decide

/-- Minting keeps the grants that are stored. -/
theorem ages_enter (registry : AuthorityRegistry) (grant : AuthorityGrant) :
    Ages registry (registry.enter grant) := by
  refine ⟨fun _ hfenced => hfenced, fun id stored hstored hstate => ⟨stored, ?_, hstate⟩⟩
  rw [enter, Std.TreeMap.getElem?_insertIfNew, if_neg]
  · exact hstored
  · rintro ⟨hsame, hnew⟩
    apply hnew
    rw [Std.LawfulEqOrd.eq_of_compare hsame, Std.TreeMap.mem_iff_isSome_getElem?, hstored]
    rfl

end Ages

theorem ages_revoke {next : AuthorityRegistry} {cause : RevocationCause} {detail : Bytes}
    (hrevoke : registry.revoke id cause detail = .ok next) : Ages registry next := by
  rw [revoke] at hrevoke
  split at hrevoke
  · cases hrevoke
  · split at hrevoke
    · cases hrevoke
      exact Ages.refl registry
    · cases hrevoke
      exact ages_insert (fun hactive => by cases hactive) rfl rfl

theorem ages_restoreGrant {next : AuthorityRegistry} {value : AuthorityGrant}
    (hrestore : registry.restoreGrant value = .ok next) : Ages registry next := by
  rw [restoreGrant, result_bind_eq_ok] at hrestore
  obtain ⟨_, -, hnext⟩ := hrestore
  cases hnext
  exact ages_insert (fun hactive => by cases hactive) rfl rfl

theorem ages_perform (registry : AuthorityRegistry) (operation : RegistryOperation) :
    Ages registry (registry.perform operation) := by
  cases operation with
  | grant dependent bound epoch boot now ttl detail =>
    rw [perform]
    split
    · rename_i id next hgrant
      obtain ⟨-, -, rfl⟩ := grant_eq_ok.mp hgrant
      exact ages_enter registry _
    · exact Ages.refl registry
  | revoke id cause detail =>
    rw [perform]
    split
    · rename_i next hrevoke
      exact ages_revoke hrevoke
    · exact Ages.refl registry
  | fenceGenerations generations => exact ages_map (demotes_sweep generations)
  | revokeDependent dependent cause detail => exact ages_map (demotes_ite (by decide))
  | invalidatePreRestart => exact ages_map (demotes_ite (by decide))
  | expireDue now => exact ages_map (demotes_ite (by decide))
  | withdrawAll cause detail => exact ages_map (demotes_ite (withdrawnState_ne_active cause))
  | commitFence record =>
    rw [perform]
    split
    · rename_i id next hcommit
      obtain ⟨-, -, -, -, -, rfl⟩ := commitFence_eq_ok.mp hcommit
      exact ages_fence rfl rfl
    · exact Ages.refl registry
  | restoreGrant value =>
    rw [perform]
    split
    · rename_i next hrestore
      exact ages_restoreGrant hrestore
    · exact Ages.refl registry
  | restoreFence value =>
    rw [perform]
    split
    · rename_i next hrestore
      obtain ⟨-, rfl⟩ := restoreFence_eq_ok.mp hrestore
      exact ages_fence rfl rfl
    · exact Ages.refl registry

theorem ages_run (registry : AuthorityRegistry) (operations : List RegistryOperation) :
    Ages registry (run perform registry operations) := by
  have hmeets : Meets perform (fun _ _ => True) registry operations :=
    meets_of_forall (fun _ _ => trivial) registry
  exact invariant_of_meets
    (fun state operation _ hages => hages.trans (ages_perform state operation)) hmeets
    (Ages.refl registry)

/-- A commitment adds the record of a generation that had none, and changes no other. -/
theorem fences_of_commitFence {next : AuthorityRegistry} {id : FenceId}
    (hcommit : registry.commitFence record = .ok (id, next)) {fence : FenceRecord}
    (hfence : registry.fences[key]? = some fence) : next.fences[key]? = some fence := by
  obtain ⟨-, -, hfree, -, -, rfl⟩ := commitFence_eq_ok.mp hcommit
  dsimp only
  rw [Std.TreeMap.getElem?_insert, if_neg]
  · exact hfence
  · intro hsame
    rw [isFenced, Std.LawfulEqOrd.eq_of_compare hsame, Std.TreeMap.contains_eq_isSome_getElem?,
      hfence] at hfree
    cases hfree

/-- The lifecycle of authority, from any state of the registry and over every sequence of its
operations. -/
theorem authority_lifecycle (registry : AuthorityRegistry) (operations : List RegistryOperation) :
    (∀ key, registry.isFenced key = true →
      (run perform registry operations).isFenced key = true ∧
      ∀ dependent bound epoch boot now ttl detail id next,
        (run perform registry operations).grant dependent bound epoch boot now ttl detail =
          .ok (id, next) → key ∉ bound.keys) ∧
    (∀ record (key : SwitchKey) fence,
      (run perform registry operations).fences[key]? = some fence →
      ((run perform registry operations).perform (.commitFence record)).fences[key]? =
        some fence) ∧
    ∀ (id : GrantId) grant, registry.grants[id]? = some grant → grant.state ≠ .active →
      ∃ later, (run perform registry operations).grants[id]? = some later ∧
        later.state ≠ .active := by
  have hages := ages_run registry operations
  refine ⟨fun key hfenced => ?_, fun record key fence hfence => ?_, hages.withdrawn⟩
  · have hstill := hages.fenced key hfenced
    refine ⟨hstill, ?_⟩
    intro dependent bound epoch boot now ttl detail id next hgrant hkey
    obtain ⟨hcheck, -, -⟩ := grant_eq_ok.mp hgrant
    obtain ⟨-, -, -, -, -, hunfenced, -⟩ := checkGrant_eq_ok.mp hcheck
    rw [hunfenced key hkey] at hstill
    cases hstill
  · rw [perform]
    split
    · rename_i id next hcommit
      exact fences_of_commitFence hcommit hfence
    · exact hfence

end AuthorityRegistry

end SwitchFailover.Model
