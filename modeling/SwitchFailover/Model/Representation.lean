import SwitchFailover.Model.Lifecycle

/-!
# How the registry represents its grants

The registry keeps the grants under their identities and an index of identities for every
dependent.  Every operation either mints a grant, restores one, or changes grants in
place.  The two maps stay in agreement as long as no restored grant takes over an identity
from another dependent and the counter of identities does not wrap.

A grant that is past its window counts as expired whether or not the sweep of expired
grants has reached it: queries do not see the difference.
-/

namespace SwitchFailover.Model.AuthorityRegistry

open SwitchFailover.Core SwitchFailover.Library.Transitions

variable {id : GrantId} {detail : Bytes} {index : List GrantId} {now : TimestampNs}

variable {registry next : AuthorityRegistry}

/-! ## What an operation does -/

/-- A grant may be withdrawn in place; one that is active afterwards has not changed. -/
structure Keeps (before after : AuthorityGrant) : Prop where
  id : after.id = before.id
  dependent : after.dependent = before.dependent
  active : after.state = .active → after = before

/-- The grants are changed in place, and neither the index nor the counter is touched. -/
structure Amended (before after : AuthorityRegistry) : Prop where
  index : after.byDependent = before.byDependent
  counter : after.nextGrant = before.nextGrant
  forth : ∀ (id : GrantId) grant, before.grants[id]? = some grant →
    ∃ later, after.grants[id]? = some later ∧ Keeps grant later
  back : ∀ (id : GrantId) later, after.grants[id]? = some later →
    ∃ grant, before.grants[id]? = some grant ∧ Keeps grant later

theorem Keeps.refl (grant : AuthorityGrant) : Keeps grant grant := ⟨rfl, rfl, fun _ => rfl⟩

theorem keeps_withdrawn {applies : Bool} {state : GrantState} (hstate : state ≠ .active)
    (cause : RevocationCause) (detail : Bytes) (grant : AuthorityGrant) :
    Keeps grant (if applies then { grant with state := state, cause := cause, detail := detail }
      else grant) := by
  cases applies with
  | false => exact Keeps.refl grant
  | true => exact ⟨rfl, rfl, fun hactive => absurd hactive hstate⟩

theorem Amended.of_same (hindex : next.byDependent = registry.byDependent)
    (hcounter : next.nextGrant = registry.nextGrant) (hgrants : next.grants = registry.grants) :
    Amended registry next where
  index := hindex
  counter := hcounter
  forth id grant hgrant := ⟨grant, by rw [hgrants, hgrant], Keeps.refl grant⟩
  back id later hlater := ⟨later, by rw [← hgrants, hlater], Keeps.refl later⟩

theorem amended_map {change : GrantId → AuthorityGrant → AuthorityGrant}
    (hkeeps : ∀ id grant, Keeps grant (change id grant)) :
    Amended registry { registry with grants := registry.grants.map change } where
  index := rfl
  counter := rfl
  forth id grant hgrant := by
    refine ⟨change id grant, ?_, hkeeps id grant⟩
    rw [Std.TreeMap.getElem?_map, hgrant]
    rfl
  back id later hlater := by
    rw [Std.TreeMap.getElem?_map, Option.map_eq_some_iff] at hlater
    obtain ⟨grant, hgrant, rfl⟩ := hlater
    exact ⟨grant, hgrant, hkeeps id grant⟩

theorem amended_insert {grant later : AuthorityGrant} (hgrant : registry.grants[id]? = some grant)
    (hkeeps : Keeps grant later) :
    Amended registry { registry with grants := registry.grants.insert id later } where
  index := rfl
  counter := rfl
  forth other stored hstored := by
    rw [Std.TreeMap.getElem?_insert]
    split
    · rename_i hsame
      rw [← Std.LawfulEqOrd.eq_of_compare hsame, hgrant] at hstored
      cases hstored
      exact ⟨later, rfl, hkeeps⟩
    · exact ⟨stored, hstored, Keeps.refl stored⟩
  back other stored hstored := by
    rw [Std.TreeMap.getElem?_insert] at hstored
    split at hstored
    · rename_i hsame
      cases hstored
      rw [← Std.LawfulEqOrd.eq_of_compare hsame]
      exact ⟨grant, hgrant, hkeeps⟩
    · exact ⟨stored, hstored, Keeps.refl stored⟩

theorem amended_revoke {cause : RevocationCause}
    (hrevoke : registry.revoke id cause detail = .ok next) : Amended registry next := by
  rw [revoke] at hrevoke
  cases hgrant : registry.grants[id]? with
  | none =>
    rw [hgrant] at hrevoke
    cases hrevoke
  | some grant =>
    rw [hgrant] at hrevoke
    dsimp only at hrevoke
    split at hrevoke
    · cases hrevoke
      exact Amended.of_same rfl rfl rfl
    · cases hrevoke
      exact amended_insert hgrant ⟨rfl, rfl, fun hactive => by cases hactive⟩

/-- The registry after a grant was restored. -/
def restored (registry : AuthorityRegistry) (value : AuthorityGrant) : AuthorityRegistry :=
  { registry with
    grants := registry.grants.insert value.id { value with
      state := .stale, cause := .restart
      detail := text "restored from durable lineage; revalidation required" }
    byDependent := registry.byDependent.insert value.dependent
      (listOnce (registry.indexOf value.dependent) value.id)
    nextGrant :=
      if value.id.raw ≥ registry.nextGrant then value.id.raw + 1 else registry.nextGrant
    attempt :=
      if value.attempt.raw > registry.attempt then value.attempt.raw else registry.attempt }

theorem restoreGrant_eq_ok {value : AuthorityGrant} :
    registry.restoreGrant value = .ok next ↔
      (value.id.valid = true ∧ value.dependent.valid = true) ∧ next = registry.restored value := by
  rw [restoreGrant, result_bind_eq_ok]
  simp only [require_eq_ok, Bool.and_eq_true, exists_and_left, exists_const, pure, Except.pure,
    Except.ok.injEq]
  exact and_congr_right fun _ => eq_comm

/-- What an accepted operation must not do for the two maps to stay in agreement. -/
def Regular (registry : AuthorityRegistry) : RegistryOperation → Prop
  | .grant dependent bound epoch boot _ ttl _ =>
      registry.checkGrant dependent bound epoch boot ttl = .ok () → registry.nextGrant + 1 ≠ 0
  | .restoreGrant value => value.id.valid = true ∧ value.dependent.valid = true →
      value.id.raw + 1 ≠ 0 ∧
      ∀ stored, registry.grants[value.id]? = some stored → stored.dependent = value.dependent
  | _ => True

/-- Every operation changes grants in place, mints a grant, or restores one. -/
theorem perform_cases (registry : AuthorityRegistry) (operation : RegistryOperation) :
    (registry.Regular operation ∧ Amended registry (registry.perform operation)) ∨
    (∃ dependent bound epoch boot now ttl detail,
      operation = .grant dependent bound epoch boot now ttl detail ∧
      registry.checkGrant dependent bound epoch boot ttl = .ok () ∧
      registry.perform operation =
        registry.enter (registry.minted dependent bound epoch boot now ttl detail)) ∨
    (∃ value, operation = .restoreGrant value ∧
      (value.id.valid = true ∧ value.dependent.valid = true) ∧
      registry.perform operation = registry.restored value) := by
  have hsame : Amended registry registry := Amended.of_same rfl rfl rfl
  cases operation with
  | grant dependent bound epoch boot now ttl detail =>
    cases hgrant : registry.grant dependent bound epoch boot now ttl detail with
    | error status =>
      rw [perform, hgrant]
      refine Or.inl ⟨fun hcheck => ?_, hsame⟩
      rw [grant, hcheck] at hgrant
      cases hgrant
    | ok result =>
      obtain ⟨hcheck, -, hnext⟩ := grant_eq_ok.mp hgrant
      refine Or.inr (Or.inl ⟨_, _, _, _, _, _, _, rfl, hcheck, ?_⟩)
      rw [perform, hgrant]
      exact hnext
  | revoke id cause detail =>
    refine Or.inl ⟨trivial, ?_⟩
    cases hrevoke : registry.revoke id cause detail with
    | error status =>
      rw [perform, hrevoke]
      exact hsame
    | ok next =>
      rw [perform, hrevoke]
      exact amended_revoke hrevoke
  | fenceGenerations generations =>
    exact Or.inl ⟨trivial, amended_map fun _ grant => keeps_withdrawn (by decide) _ _ grant⟩
  | revokeDependent dependent cause detail =>
    exact Or.inl ⟨trivial, amended_map fun _ grant => keeps_withdrawn (by decide) _ _ grant⟩
  | invalidatePreRestart =>
    exact Or.inl ⟨trivial, amended_map fun _ grant => keeps_withdrawn (by decide) _ _ grant⟩
  | expireDue now =>
    exact Or.inl ⟨trivial, amended_map fun _ grant => keeps_withdrawn (by decide) _ _ grant⟩
  | withdrawAll cause detail =>
    exact Or.inl ⟨trivial, amended_map fun _ grant =>
      keeps_withdrawn (withdrawnState_ne_active cause) _ _ grant⟩
  | commitFence record =>
    refine Or.inl ⟨trivial, ?_⟩
    cases hcommit : registry.commitFence record with
    | error status =>
      rw [perform, hcommit]
      exact hsame
    | ok result =>
      rw [perform, hcommit]
      obtain ⟨-, -, -, -, -, hnext⟩ := commitFence_eq_ok.mp hcommit
      dsimp only
      rw [hnext]
      exact Amended.of_same rfl rfl rfl
  | restoreGrant value =>
    cases hrestore : registry.restoreGrant value with
    | error status =>
      rw [perform, hrestore]
      refine Or.inl ⟨fun hvalid => ?_, hsame⟩
      rw [restoreGrant_eq_ok.mpr ⟨hvalid, rfl⟩] at hrestore
      cases hrestore
    | ok next =>
      obtain ⟨hvalid, hnext⟩ := restoreGrant_eq_ok.mp hrestore
      refine Or.inr (Or.inr ⟨value, rfl, hvalid, ?_⟩)
      rw [perform, hrestore]
      exact hnext
  | restoreFence value =>
    refine Or.inl ⟨trivial, ?_⟩
    cases hrestore : registry.restoreFence value with
    | error status =>
      rw [perform, hrestore]
      exact hsame
    | ok next =>
      rw [perform, hrestore]
      obtain ⟨-, hnext⟩ := restoreFence_eq_ok.mp hrestore
      dsimp only
      rw [hnext]
      exact Amended.of_same rfl rfl rfl

/-! ## Agreement of the two maps -/

/-- The index of a dependent lists exactly the grants stored for it, each once, and the
counter is above every identity that is in use. -/
structure Represented (registry : AuthorityRegistry) : Prop where
  named : ∀ (id : GrantId) grant, registry.grants[id]? = some grant → grant.id = id
  listed : ∀ dependent (id : GrantId), id ∈ registry.indexOf dependent ↔
    ∃ grant, registry.grants[id]? = some grant ∧ grant.dependent = dependent
  once : ∀ dependent, (registry.indexOf dependent).Nodup
  above : ∀ (id : GrantId) grant, registry.grants[id]? = some grant → id.raw < registry.nextGrant
  started : 0 < registry.nextGrant

theorem represented_initial (limits : Limits) : ({ limits } : AuthorityRegistry).Represented where
  named id grant hgrant := by simp at hgrant
  listed dependent id := by simp [indexOf]
  once dependent := by simp [indexOf]
  above id grant hgrant := by simp at hgrant
  started := by
    change (0 : UInt64) < 1
    decide

theorem toNat_add_one {value : UInt64} (hwrap : value + 1 ≠ 0) :
    (value + 1).toNat = value.toNat + 1 := by
  have hsmall := value.toNat_lt
  have hne : value.toNat + 1 ≠ 2 ^ 64 := by
    intro hlast
    apply hwrap
    rw [← UInt64.toNat_inj, UInt64.toNat_add]
    change (value.toNat + 1) % 2 ^ 64 = 0
    rw [hlast, Nat.mod_self]
  rw [UInt64.toNat_add]
  change (value.toNat + 1) % 2 ^ 64 = value.toNat + 1
  exact Nat.mod_eq_of_lt (by omega)

theorem Represented.amended (hrepresented : registry.Represented)
    (hamended : Amended registry next) : next.Represented where
  named id later hlater := by
    obtain ⟨grant, hgrant, hkeeps⟩ := hamended.back id later hlater
    rw [hkeeps.id]
    exact hrepresented.named id grant hgrant
  listed dependent id := by
    rw [show next.indexOf dependent = registry.indexOf dependent by
      rw [indexOf, hamended.index, indexOf], hrepresented.listed]
    constructor
    · rintro ⟨grant, hgrant, hdependent⟩
      obtain ⟨later, hlater, hkeeps⟩ := hamended.forth id grant hgrant
      exact ⟨later, hlater, hkeeps.dependent.trans hdependent⟩
    · rintro ⟨later, hlater, hdependent⟩
      obtain ⟨grant, hgrant, hkeeps⟩ := hamended.back id later hlater
      exact ⟨grant, hgrant, hkeeps.dependent.symm.trans hdependent⟩
  once dependent := by
    rw [indexOf, hamended.index]
    exact hrepresented.once dependent
  above id later hlater := by
    obtain ⟨grant, hgrant, -⟩ := hamended.back id later hlater
    rw [hamended.counter]
    exact hrepresented.above id grant hgrant
  started := by
    rw [hamended.counter]
    exact hrepresented.started

/-- The identity that is minted next is valid and free. -/
theorem Represented.next_free (hrepresented : registry.Represented) :
    (⟨registry.nextGrant⟩ : GrantId).valid = true ∧
      (⟨registry.nextGrant⟩ : GrantId) ∉ registry.grants := by
  constructor
  · rw [StrongId.valid, bne_iff_ne]
    intro hzero
    have hstarted := hrepresented.started
    rw [show registry.nextGrant = 0 from hzero] at hstarted
    exact absurd hstarted (by decide)
  · intro hmem
    have hsome := Std.TreeMap.getElem?_eq_some_getElem hmem
    exact UInt64.lt_irrefl _ (hrepresented.above _ _ hsome)

/-! ### Minting -/

section Minting

variable {grant : AuthorityGrant}

theorem getElem?_enter (hid : grant.id ∉ registry.grants) (id : GrantId) :
    (registry.enter grant).grants[id]? =
      if grant.id = id then some grant else registry.grants[id]? := by
  rw [enter, Std.TreeMap.getElem?_insertIfNew]
  exact if_congr (by rw [Std.LawfulEqCmp.compare_eq_iff_eq]; exact and_iff_left hid) rfl rfl

theorem Represented.enter (hrepresented : registry.Represented)
    (hid : grant.id = ⟨registry.nextGrant⟩) (hwrap : registry.nextGrant + 1 ≠ 0) :
    (registry.enter grant).Represented := by
  have hfree : grant.id ∉ registry.grants := by
    rw [hid]
    exact hrepresented.next_free.2
  have hunlisted : ∀ dependent, grant.id ∉ registry.indexOf dependent := by
    intro dependent hmem
    obtain ⟨stored, hstored, -⟩ := (hrepresented.listed dependent grant.id).mp hmem
    rw [Std.TreeMap.getElem?_eq_none hfree] at hstored
    cases hstored
  have hcounter : (registry.enter grant).nextGrant.toNat = registry.nextGrant.toNat + 1 :=
    toNat_add_one hwrap
  refine ⟨fun id stored hstored => ?_, fun dependent id => ?_, fun dependent => ?_,
    fun id stored hstored => ?_, ?_⟩
  · rw [getElem?_enter hfree] at hstored
    split at hstored
    · rename_i hsame
      cases hstored
      exact hsame
    · exact hrepresented.named id stored hstored
  · rw [getElem?_enter hfree, indexOf_enter]
    by_cases hsame : grant.id = id
    · -- the new identity is listed for the new dependent only
      subst hsame
      rw [if_pos rfl]
      by_cases hdependent : dependent = grant.dependent
      · rw [if_pos hdependent]
        exact iff_of_true (List.mem_append_right _ List.mem_cons_self) ⟨grant, rfl, hdependent.symm⟩
      · rw [if_neg hdependent]
        refine iff_of_false (hunlisted dependent) ?_
        rintro ⟨stored, hstored, hother⟩
        cases hstored
        exact hdependent hother.symm
    · rw [if_neg hsame, ← hrepresented.listed]
      split
      · rw [List.mem_append, List.mem_singleton]
        exact or_iff_left fun heq => hsame heq.symm
      · exact Iff.rfl
  · rw [indexOf_enter]
    split
    · refine List.nodup_append.mpr ⟨hrepresented.once dependent, List.nodup_singleton _, ?_⟩
      rintro id hmem other hother rfl
      rw [List.mem_singleton.mp hother] at hmem
      exact hunlisted dependent hmem
    · exact hrepresented.once dependent
  · rw [UInt64.lt_iff_toNat_lt, hcounter]
    rw [getElem?_enter hfree] at hstored
    split at hstored
    · rename_i hsame
      rw [← hsame, hid]
      exact Nat.lt_succ_self _
    · exact Nat.lt_succ_of_lt (UInt64.lt_iff_toNat_lt.mp (hrepresented.above id stored hstored))
  · rw [UInt64.lt_iff_toNat_lt, hcounter]
    exact Nat.succ_pos _

/-- If the counter wraps, the grant that was just minted is not below it. -/
theorem Represented.of_enter (hrepresented : registry.Represented)
    (hid : grant.id = ⟨registry.nextGrant⟩) (hnext : (registry.enter grant).Represented) :
    registry.nextGrant + 1 ≠ 0 := by
  intro hwrap
  have hfree : grant.id ∉ registry.grants := by
    rw [hid]
    exact hrepresented.next_free.2
  have hstored : (registry.enter grant).grants[grant.id]? = some grant := by
    rw [getElem?_enter hfree, if_pos rfl]
  have habove := hnext.above grant.id grant hstored
  rw [show (registry.enter grant).nextGrant = 0 from hwrap] at habove
  exact UInt64.not_lt_zero habove

end Minting

/-! ### Restoring -/

section Restoring

variable {value : AuthorityGrant}

theorem mem_listOnce_iff {other : GrantId} :
    other ∈ listOnce index id ↔ other ∈ index ∨ other = id := by
  refine ⟨mem_listOnce, fun hmem => ?_⟩
  rw [listOnce]
  split
  · rename_i hlisted
    rcases hmem with hindex | rfl
    · exact hindex
    · exact List.contains_iff_mem.mp hlisted
  · exact List.mem_append.mpr (hmem.imp_right List.mem_singleton.mpr)

theorem nodup_listOnce (hnodup : index.Nodup) (id : GrantId) : (listOnce index id).Nodup := by
  rw [listOnce]
  split
  · exact hnodup
  · rename_i hnew
    refine List.nodup_append.mpr ⟨hnodup, List.nodup_singleton _, ?_⟩
    rintro other hmem last hlast rfl
    rw [List.mem_singleton.mp hlast] at hmem
    exact hnew (List.contains_iff_mem.mpr hmem)

theorem indexOf_restored (dependent : DependentRef) :
    (registry.restored value).indexOf dependent =
      if dependent = value.dependent then listOnce (registry.indexOf dependent) value.id
      else registry.indexOf dependent := by
  simp only [indexOf, restored, Std.TreeMap.getElem?_insert, Std.LawfulEqCmp.compare_eq_iff_eq]
  by_cases hsame : dependent = value.dependent
  · simp [hsame]
  · simp [hsame, Ne.symm hsame]

/-- What is stored under the restored identity belongs to the restored dependent. -/
theorem getElem?_restored (registry : AuthorityRegistry) (value : AuthorityGrant) :
    ∃ record : AuthorityGrant, record.id = value.id ∧ record.dependent = value.dependent ∧
      record.state ≠ .active ∧ ∀ id : GrantId, (registry.restored value).grants[id]? =
        if value.id = id then some record else registry.grants[id]? := by
  refine ⟨{ value with
    state := .stale, cause := .restart
    detail := text "restored from durable lineage; revalidation required" }, rfl, rfl,
    (by intro hactive; cases hactive), fun id => ?_⟩
  rw [restored, Std.TreeMap.getElem?_insert]
  exact if_congr Std.LawfulEqCmp.compare_eq_iff_eq rfl rfl

theorem nextGrant_restored (registry : AuthorityRegistry) (hwrap : value.id.raw + 1 ≠ 0) :
    (registry.restored value).nextGrant.toNat =
      max (value.id.raw.toNat + 1) registry.nextGrant.toNat := by
  change (if value.id.raw ≥ registry.nextGrant then value.id.raw + 1
    else registry.nextGrant).toNat = _
  split
  · rename_i hge
    have hle : registry.nextGrant.toNat ≤ value.id.raw.toNat := UInt64.le_iff_toNat_le.mp hge
    rw [toNat_add_one hwrap]
    omega
  · rename_i hlt
    have hless : value.id.raw.toNat < registry.nextGrant.toNat :=
      UInt64.lt_iff_toNat_lt.mp (UInt64.not_le.mp hlt)
    omega

theorem Represented.restored (hrepresented : registry.Represented) (hwrap : value.id.raw + 1 ≠ 0)
    (hown : ∀ stored, registry.grants[value.id]? = some stored →
      stored.dependent = value.dependent) : (registry.restored value).Represented := by
  obtain ⟨record, hid, hdependent, -, hgrants⟩ := registry.getElem?_restored value
  have hcounter := registry.nextGrant_restored hwrap
  refine ⟨fun id stored hstored => ?_, fun dependent id => ?_, fun dependent => ?_,
    fun id stored hstored => ?_, ?_⟩
  · rw [hgrants] at hstored
    split at hstored
    · rename_i hsame
      cases hstored
      exact hid.trans hsame
    · exact hrepresented.named id stored hstored
  · rw [hgrants, indexOf_restored]
    by_cases hsame : value.id = id
    · -- the identity may have been stored before, but only for the same dependent
      subst hsame
      rw [if_pos rfl]
      by_cases howner : dependent = value.dependent
      · rw [if_pos howner]
        exact iff_of_true (mem_listOnce_iff.mpr (Or.inr rfl))
          ⟨record, rfl, hdependent.trans howner.symm⟩
      · rw [if_neg howner, hrepresented.listed]
        refine iff_of_false ?_ ?_
        · rintro ⟨stored, hstored, hother⟩
          exact howner (hother.symm.trans (hown stored hstored))
        · rintro ⟨stored, hstored, hother⟩
          cases hstored
          exact howner (hother.symm.trans hdependent)
    · rw [if_neg hsame, ← hrepresented.listed]
      split
      · rw [mem_listOnce_iff]
        exact or_iff_left fun heq => hsame heq.symm
      · exact Iff.rfl
  · rw [indexOf_restored]
    split
    · exact nodup_listOnce (hrepresented.once dependent) value.id
    · exact hrepresented.once dependent
  · rw [UInt64.lt_iff_toNat_lt, hcounter]
    rw [hgrants] at hstored
    split at hstored
    · rename_i hsame
      rw [← hsame]
      omega
    · have habove := UInt64.lt_iff_toNat_lt.mp (hrepresented.above id stored hstored)
      omega
  · rw [UInt64.lt_iff_toNat_lt, hcounter]
    change 0 < _
    omega

/-- Taking over an identity of another dependent leaves it listed there, and restoring the
last identity makes the counter wrap. -/
theorem Represented.of_restored (hrepresented : registry.Represented)
    (hnext : (registry.restored value).Represented) :
    value.id.raw + 1 ≠ 0 ∧ ∀ stored, registry.grants[value.id]? = some stored →
      stored.dependent = value.dependent := by
  obtain ⟨record, -, hdependent, -, hgrants⟩ := registry.getElem?_restored value
  have hrecord : (registry.restored value).grants[value.id]? = some record := by
    rw [hgrants, if_pos rfl]
  constructor
  · intro hwrap
    have habove := hnext.above value.id record hrecord
    have hlast : registry.nextGrant ≤ value.id.raw := by
      rw [UInt64.le_iff_toNat_le]
      have hsmall := registry.nextGrant.toNat_lt
      have hzero := congrArg UInt64.toNat hwrap
      rw [UInt64.toNat_add] at hzero
      change (value.id.raw.toNat + 1) % 2 ^ 64 = 0 at hzero
      omega
    rw [show (registry.restored value).nextGrant = 0 from (if_pos hlast).trans hwrap] at habove
    exact UInt64.not_lt_zero habove
  · intro stored hstored
    by_contra hother
    have hlisted : value.id ∈ (registry.restored value).indexOf stored.dependent := by
      rw [indexOf_restored, if_neg hother, hrepresented.listed]
      exact ⟨stored, hstored, rfl⟩
    obtain ⟨later, hlater, howner⟩ := (hnext.listed stored.dependent value.id).mp hlisted
    rw [hrecord] at hlater
    cases hlater
    exact hother (howner.symm.trans hdependent)

end Restoring

/-! ### Runs -/

/-- An operation keeps the two maps in agreement exactly if it is regular. -/
theorem represented_perform_iff (hrepresented : registry.Represented)
    (operation : RegistryOperation) :
    (registry.perform operation).Represented ↔ registry.Regular operation := by
  rcases registry.perform_cases operation with ⟨hregular, hamended⟩ |
    ⟨dependent, bound, epoch, boot, now, ttl, detail, rfl, hcheck, hnext⟩ |
    ⟨value, rfl, hvalid, hnext⟩
  · exact iff_of_true (hrepresented.amended hamended) hregular
  · rw [hnext]
    exact ⟨fun hentered _ => hrepresented.of_enter rfl hentered,
      fun hregular => hrepresented.enter rfl (hregular hcheck)⟩
  · rw [hnext]
    exact ⟨fun hrestored _ => hrepresented.of_restored hrestored,
      fun hregular => hrepresented.restored (hregular hvalid).1 (hregular hvalid).2⟩

theorem represented_run (limits : Limits) {operations : List RegistryOperation}
    (hregular : Meets perform Regular ({ limits } : AuthorityRegistry) operations) :
    (run perform ({ limits } : AuthorityRegistry) operations).Represented := by
  have hstep : ∀ (registry : AuthorityRegistry) (operation : RegistryOperation),
      registry.Regular operation → registry.Represented →
      (registry.perform operation).Represented := by
    intro registry operation hregular hrepresented
    exact (represented_perform_iff hrepresented operation).mpr hregular
  exact invariant_of_meets hstep hregular (represented_initial limits)

/-- What a successful grant stores. -/
theorem Represented.granted (hrepresented : registry.Represented) {dependent : DependentRef}
    {bound : GenerationVector} {epoch : CoordinatorEpoch} {boot : BootIncarnation} {ttl : UInt64}
    (hgrant : registry.grant dependent bound epoch boot now ttl detail = .ok (id, next)) :
    id.valid = true ∧ id ∉ registry.grants ∧ ∃ stored, next.grants[id]? = some stored ∧
      stored.dependent = dependent ∧ stored.bound = bound := by
  obtain ⟨-, rfl, rfl⟩ := grant_eq_ok.mp hgrant
  obtain ⟨hvalid, hfree⟩ := hrepresented.next_free
  refine ⟨hvalid, hfree, registry.minted dependent bound epoch boot now ttl detail, ?_, rfl, rfl⟩
  exact (getElem?_enter hfree _).trans (if_pos rfl)

/-- The representation of the grants.  In every run of regular operations the two maps agree
and a grant is minted under a valid identity that was free.  An operation that is not regular
destroys the agreement. -/
theorem registry_representation (limits : Limits) (operations : List RegistryOperation) :
    (Meets perform Regular ({ limits } : AuthorityRegistry) operations →
      let registry := run perform ({ limits } : AuthorityRegistry) operations
      registry.Represented ∧
      ∀ dependent bound epoch boot now ttl detail id next,
        registry.grant dependent bound epoch boot now ttl detail = .ok (id, next) →
        id.valid = true ∧ id ∉ registry.grants ∧ ∃ stored, next.grants[id]? = some stored ∧
          stored.dependent = dependent ∧ stored.bound = bound) ∧
    ∀ (registry : AuthorityRegistry) (operation : RegistryOperation), registry.Represented →
      ((registry.perform operation).Represented ↔ registry.Regular operation) := by
  refine ⟨fun hregular => ?_, fun registry operation hrepresented =>
    represented_perform_iff hrepresented operation⟩
  have hrepresented := represented_run limits hregular
  refine ⟨hrepresented, ?_⟩
  intro dependent bound epoch boot now ttl detail id next hgrant
  exact hrepresented.granted hgrant

namespace Sample

/-- A grant of a port under the given identity, as it was journaled. -/
def journaled (id port : UInt64) : AuthorityGrant := { id := ⟨id⟩, dependent := .port port }

def bound : GenerationVector := .canonicalise [⟨⟨1⟩, ⟨1⟩⟩]

def boot : BootIncarnation := { bootOrdinal := 1 }

/-- A port that is granted a generation for ten nanoseconds. -/
def granting : RegistryOperation := .grant (.port 1) bound ⟨1⟩ boot 100 10 []

/-- Two grants are restored, one of them twice, another is made, and all of a port are
revoked. -/
def regularRun : List RegistryOperation :=
  [.restoreGrant (journaled 7 2), .restoreGrant (journaled 3 1), .restoreGrant (journaled 7 2),
    granting, .revokeDependent (.port 2) .operatorRevocation []]

/-- `Regular`, checked by evaluation. -/
def regular (registry : AuthorityRegistry) : RegistryOperation → Bool
  | .grant .. => registry.nextGrant + 1 != 0
  | .restoreGrant value => value.id.raw + 1 != 0 &&
      (registry.grants[value.id]?).all fun stored => stored.dependent == value.dependent
  | _ => true

theorem regular_sound (registry : AuthorityRegistry) (operation : RegistryOperation)
    (hregular : regular registry operation = true) : registry.Regular operation := by
  cases operation with
  | grant dependent bound epoch boot now ttl detail => exact fun _ => bne_iff_ne.mp hregular
  | restoreGrant value =>
    rw [regular, Bool.and_eq_true, bne_iff_ne] at hregular
    refine fun _ => ⟨hregular.1, fun stored hstored => ?_⟩
    rw [hstored] at hregular
    exact beq_iff_eq.mp hregular.2
  | _ => trivial

end Sample

/-- After such a run the next grant comes under an identity of its own, and a grant that is
restored under the identity of another port breaks the representation. -/
theorem registry_representation_sample :
    let registry := run perform ({ limits := {} } : AuthorityRegistry) Sample.regularRun
    registry.grants.size = 3 ∧ registry.Represented ∧
      (∃ id next, registry.grant (.port 2) Sample.bound ⟨1⟩ Sample.boot 200 10 [] =
        .ok (id, next) ∧ id = ⟨9⟩ ∧ id ∉ registry.grants) ∧
      ¬(registry.perform (.restoreGrant (Sample.journaled 7 1))).Represented := by
  intro registry
  obtain ⟨hruns, hsteps⟩ := registry_representation {} Sample.regularRun
  have hchecks : checks perform Sample.regular ({ limits := {} } : AuthorityRegistry)
      Sample.regularRun = true := by decide +kernel
  obtain ⟨hrepresented, hgrants⟩ := hruns (meets_of_checks Sample.regular_sound hchecks)
  have hgranted : ((registry.grant (.port 2) Sample.bound ⟨1⟩ Sample.boot 200 10 []).toOption.any
      fun granted => granted.1 == ⟨9⟩) = true := by decide +kernel
  have hstored : ((registry.grants[(⟨7⟩ : GrantId)]?).any fun grant =>
      grant.dependent == .port 2) = true := by decide +kernel
  refine ⟨by decide +kernel, hrepresented, ?_, fun hbroken => ?_⟩
  · cases hgrant : registry.grant (.port 2) Sample.bound ⟨1⟩ Sample.boot 200 10 [] with
    | error status =>
      rw [hgrant] at hgranted
      cases hgranted
    | ok granted =>
      rw [hgrant] at hgranted
      exact ⟨granted.1, granted.2, rfl, beq_iff_eq.mp hgranted,
        (hgrants _ _ _ _ _ _ _ _ _ hgrant).2.1⟩
  · obtain ⟨stored, hfound, hport⟩ := (Option.any_eq_true _ _).mp hstored
    have hsame := ((hsteps _ _ hrepresented).mp hbroken ⟨by decide, by decide⟩).2 stored hfound
    rw [beq_iff_eq.mp hport] at hsame
    revert hsame
    decide

/-- Two grants restored under one identity leave it in the index of both ports, though it is
stored for the second only.  After the last identity is restored, the next grant comes with
the invalid one. -/
theorem representation_broken :
    let shared := run perform ({ limits := {} } : AuthorityRegistry)
      [.restoreGrant (Sample.journaled 1 1), .restoreGrant (Sample.journaled 1 2)]
    let wrapped := run perform ({ limits := {} } : AuthorityRegistry)
      [.restoreGrant (Sample.journaled 0xFFFFFFFFFFFFFFFF 1)]
    (⟨1⟩ : GrantId) ∈ shared.indexOf (.port 1) ∧
    (shared.grants[(⟨1⟩ : GrantId)]?).map (·.dependent) = some (.port 2) ∧
    wrapped.nextGrant = 0 ∧
    (wrapped.grant (.port 1) Sample.bound ⟨1⟩ Sample.boot 100 10 []).toOption.map (·.1) =
      some ⟨0⟩ ∧
    (⟨0⟩ : GrantId).valid = false := by
  refine ⟨?_, ?_, ?_, ?_, ?_⟩
  · decide +kernel
  · decide +kernel
  · decide +kernel
  · decide +kernel
  · decide

/-! ## Expiry -/

/-- An active grant was never withdrawn, so it carries no cause. -/
def Uncaused (registry : AuthorityRegistry) : Prop :=
  ∀ id grant, registry.ActiveUnder id grant → grant.cause = .unknown

theorem Uncaused.perform (huncaused : registry.Uncaused) (operation : RegistryOperation) :
    (registry.perform operation).Uncaused := by
  rcases registry.perform_cases operation with ⟨-, hamended⟩ |
    ⟨dependent, bound, epoch, boot, now, ttl, detail, -, -, hnext⟩ | ⟨value, -, -, hnext⟩
  · rintro id later ⟨hlater, hactive⟩
    obtain ⟨grant, hgrant, hkeeps⟩ := hamended.back id later hlater
    have hsame := hkeeps.active hactive
    rw [hsame] at hactive ⊢
    exact huncaused id grant ⟨hgrant, hactive⟩
  · rw [hnext]
    intro id grant hactive
    rcases activeUnder_enter hactive with hold | ⟨-, rfl, -⟩
    · exact huncaused id grant hold
    · rfl
  · rw [hnext]
    obtain ⟨record, -, -, hstale, hgrants⟩ := registry.getElem?_restored value
    rintro id grant ⟨hgrant, hactive⟩
    rw [hgrants] at hgrant
    split at hgrant
    · cases hgrant
      exact absurd hactive hstale
    · exact huncaused id grant ⟨hgrant, hactive⟩

theorem uncaused_run (limits : Limits) (operations : List RegistryOperation) :
    (run perform ({ limits } : AuthorityRegistry) operations).Uncaused := by
  have hinitial : ({ limits } : AuthorityRegistry).Uncaused := by
    intro id grant hactive
    simp [ActiveUnder] at hactive
  have hstep : ∀ (registry : AuthorityRegistry) (operation : RegistryOperation), True →
      registry.Uncaused → (registry.perform operation).Uncaused :=
    fun registry operation _ huncaused => huncaused.perform operation
  have hmeets : Meets perform (fun _ _ => True) ({ limits } : AuthorityRegistry) operations :=
    meets_of_forall (fun _ _ => trivial) _
  exact invariant_of_meets hstep hmeets hinitial

/-- A grant that was active outside its window and one that is expired are visited alike. -/
theorem visitWithdrawn_expired {grant : AuthorityGrant} (hactive : grant.state = .active)
    (hcause : grant.cause = .unknown) (scan : QueryScan) (id : GrantId) (detail : Bytes) :
    scan.visitWithdrawn id { grant with state := .expired, cause := .expiry, detail := detail } =
      scan.visitWithdrawn id grant := by
  rw [QueryScan.visitWithdrawn, QueryScan.visitWithdrawn, hactive, hcause]
  rfl

theorem visitGrant_expireDue (huncaused : registry.Uncaused) {time : TimestampNs}
    (htime : time ≤ now) (scan : QueryScan) (id : GrantId) :
    (registry.expireDue time).2.visitGrant now scan id = registry.visitGrant now scan id := by
  rw [visitGrant, visitGrant, expireDue, withdraw, Std.TreeMap.getElem?_map]
  cases hgrant : registry.grants[id]? with
  | none => rfl
  | some grant =>
    dsimp only [Option.map_some]
    by_cases hdue : (grant.state == .active && decide (grant.expiresAtNs < time)) = true
    · rw [if_pos hdue]
      rw [Bool.and_eq_true, beq_iff_eq, decide_eq_true_eq] at hdue
      have hpast : grant.activeAt now = false := by
        rw [AuthorityGrant.activeAt, Bool.and_eq_false_iff, decide_eq_false_iff_not]
        right
        intro hwithin
        have hbefore := UInt64.lt_iff_toNat_lt.mp hdue.2
        have horder := UInt64.le_iff_toNat_le.mp htime
        have hend := UInt64.le_iff_toNat_le.mp hwithin
        omega
      rw [hpast, if_neg Bool.false_ne_true, if_neg]
      · exact visitWithdrawn_expired hdue.1 (huncaused id grant ⟨hgrant, hdue.1⟩) scan id _
      · exact Bool.false_ne_true
    · rw [if_neg hdue]

/-- Whether or not the sweep of expired grants ran first, a query answers the same. -/
theorem query_expireDue (limits : Limits) (operations : List RegistryOperation)
    (dependent : DependentRef) {time now : TimestampNs} (htime : time ≤ now) :
    let registry := run perform ({ limits } : AuthorityRegistry) operations
    (registry.expireDue time).2.query dependent now = registry.query dependent now := by
  intro registry
  have hvisit : (registry.expireDue time).2.visitGrant now = registry.visitGrant now := by
    funext scan id
    exact visitGrant_expireDue (uncaused_run limits operations) htime scan id
  rw [query, query, hvisit]
  rfl

/-- The window of a grant ends, the sweep marks the grant, and the query finds it expired
before and after. -/
theorem query_expireDue_sample :
    let registry := run perform ({ limits := {} } : AuthorityRegistry) [Sample.granting]
    (registry.expireDue 200).1 = 1 ∧ (registry.query (.port 1) 300).outcome = .expired ∧
      (registry.expireDue 200).2.query (.port 1) 300 = registry.query (.port 1) 300 := by
  refine ⟨by decide +kernel, by decide +kernel, ?_⟩
  exact query_expireDue {} [Sample.granting] (.port 1) (by decide)

end SwitchFailover.Model.AuthorityRegistry
