import SwitchFailover.Core.Outcome
import SwitchFailover.Library.Ordering

/-!
# Strongly typed identities

Identifiers of different domains are different types, and every authority
bearing relation is keyed on the generation-qualified switch identity.  The
canonical orders are the ones the ordered maps and the sorted vectors of the
runtime use.
-/

namespace SwitchFailover.Core

open Std (TransOrd LawfulEqOrd TransCmp)
open Library.Ordering

inductive IdDomain
  | switch | link | path | node | fence | grant | plan | decision | evidence
  | session | attempt | epoch | failureDomain | topologyVersion
  | switchGeneration | pathGeneration
  deriving DecidableEq

/-- A 64-bit identifier of one domain.  Zero is reserved for "no identity". -/
structure StrongId (domain : IdDomain) where
  raw : UInt64 := 0
  deriving DecidableEq

namespace StrongId

variable {domain : IdDomain}

def valid (id : StrongId domain) : Bool := id.raw != 0

theorem raw_injective : Function.Injective (raw : StrongId domain → UInt64) := by
  rintro ⟨left⟩ ⟨right⟩ heq
  exact congrArg mk heq

instance : Inhabited (StrongId domain) := ⟨⟨0⟩⟩

instance : Ord (StrongId domain) := ⟨compareOn raw⟩

instance : TransOrd (StrongId domain) :=
  inferInstanceAs (TransCmp (compareOn (@raw domain)))

instance : LawfulEqOrd (StrongId domain) := lawfulEqCmp_compareOn raw_injective

instance : LinearOrder (StrongId domain) := LinearOrder.ofStd _

end StrongId

abbrev SwitchId := StrongId .switch
abbrev LinkId := StrongId .link
abbrev PathId := StrongId .path
abbrev NodeId := StrongId .node
abbrev FenceId := StrongId .fence
abbrev GrantId := StrongId .grant
abbrev PlanId := StrongId .plan
abbrev EvidenceId := StrongId .evidence
abbrev SessionId := StrongId .session
abbrev AttemptSeq := StrongId .attempt
abbrev CoordinatorEpoch := StrongId .epoch
abbrev FailureDomainId := StrongId .failureDomain
abbrev TopologyVersion := StrongId .topologyVersion
abbrev SwitchGeneration := StrongId .switchGeneration

/-- Nanoseconds on the monotonic axis of the runtime's clock. -/
abbrev TimestampNs := UInt64

def nanosPerSecond : TimestampNs := 1000000000

/-- Generation-qualified switch identity.  Equal ids with different generations
are different authority subjects. -/
structure SwitchKey where
  id : SwitchId := default
  generation : SwitchGeneration := default
  deriving DecidableEq

namespace SwitchKey

instance : Inhabited SwitchKey := ⟨{}⟩

def valid (key : SwitchKey) : Bool := key.id.valid && key.generation.valid

def sameIdentity (key other : SwitchKey) : Bool := key.id == other.id

def rank (key : SwitchKey) : SwitchId ×ₗ SwitchGeneration :=
  toLex (key.id, key.generation)

theorem rank_injective : Function.Injective rank := by
  rintro ⟨leftId, leftGeneration⟩ ⟨rightId, rightGeneration⟩ heq
  simpa [rank] using heq

instance : Ord SwitchKey := ⟨compareOn rank⟩

instance : TransOrd SwitchKey := inferInstanceAs (TransCmp (compareOn rank))

instance : LawfulEqOrd SwitchKey := lawfulEqCmp_compareOn rank_injective

instance : LinearOrder SwitchKey := LinearOrder.ofStd _

instance : LawfulBEq SwitchKey := inferInstance

/-- The text is formatted into a 48-byte buffer, so at most 47 bytes of it
survive. -/
def toText (key : SwitchKey) : Bytes :=
  (text "switch(" ++ decimal key.id.raw.toNat ++ text ")@gen(" ++
    decimal key.generation.raw.toNat ++ text ")").take 47

end SwitchKey

/-- Process-incarnation boundary. -/
structure BootIncarnation where
  processId : UInt64 := 0
  bootOrdinal : UInt64 := 0
  nonceHi : UInt64 := 0
  nonceLo : UInt64 := 0
  deriving DecidableEq

def BootIncarnation.valid (boot : BootIncarnation) : Bool := boot.bootOrdinal != 0

instance : Inhabited BootIncarnation := ⟨{}⟩

inductive DependentKind
  | unknown | port | link | path | service
  deriving DecidableEq

def DependentKind.raw (kind : DependentKind) : UInt8 := kind.ctorIdx.toUInt8

/-- `is_valid_dependent_kind` followed by the cast: zero is not a valid kind. -/
def DependentKind.ofRaw : UInt8 → Option DependentKind
  | 1 => some .port
  | 2 => some .link
  | 3 => some .path
  | 4 => some .service
  | _ => none

theorem DependentKind.raw_injective : Function.Injective DependentKind.raw := by
  intro left right heq
  cases left <;> cases right <;> first | rfl | exact absurd heq (by decide)

theorem DependentKind.ofRaw_eq_some {raw : UInt8} {kind : DependentKind} :
    DependentKind.ofRaw raw = some kind ↔ kind ≠ .unknown ∧ raw = kind.raw := by
  constructor
  · intro hkind
    unfold DependentKind.ofRaw at hkind
    split at hkind <;> cases hkind <;> exact ⟨by decide, rfl⟩
  · rintro ⟨hkind, rfl⟩
    cases kind <;> first | rfl | exact absurd rfl hkind

def DependentKind.toText : DependentKind → Bytes
  | .unknown => text "UNKNOWN"
  | .port => text "PORT"
  | .link => text "LINK"
  | .path => text "PATH"
  | .service => text "SERVICE"

/-- A dependent resource; the pair of kind and id is its identity. -/
structure DependentRef where
  kind : DependentKind := .unknown
  id : UInt64 := 0
  deriving DecidableEq

namespace DependentRef

instance : Inhabited DependentRef := ⟨{}⟩

def port (id : UInt64) : DependentRef := ⟨.port, id⟩
def link (id : LinkId) : DependentRef := ⟨.link, id.raw⟩
def path (id : PathId) : DependentRef := ⟨.path, id.raw⟩
def service (id : UInt64) : DependentRef := ⟨.service, id⟩

def valid (dependent : DependentRef) : Bool :=
  dependent.kind != .unknown && dependent.id != 0

theorem kind_of_valid {dependent : DependentRef} (hvalid : dependent.valid = true) :
    dependent.kind ≠ .unknown :=
  bne_iff_ne.mp (Bool.and_eq_true_iff.mp hvalid).1

def rank (dependent : DependentRef) : UInt8 ×ₗ UInt64 :=
  toLex (dependent.kind.raw, dependent.id)

theorem rank_injective : Function.Injective rank := by
  rintro ⟨leftKind, leftId⟩ ⟨rightKind, rightId⟩ heq
  have hparts := Prod.ext_iff.mp (toLex.injective heq)
  exact congrArg₂ mk (DependentKind.raw_injective hparts.1) hparts.2

instance : Ord DependentRef := ⟨compareOn rank⟩

instance : TransOrd DependentRef := inferInstanceAs (TransCmp (compareOn rank))

instance : LawfulEqOrd DependentRef := lawfulEqCmp_compareOn rank_injective

instance : LinearOrder DependentRef := LinearOrder.ofStd _

def toText (dependent : DependentRef) : Bytes :=
  dependent.kind.toText ++ text "(" ++ decimal dependent.id.toNat ++ text ")"

end DependentRef

/-- Lower bound of the identifiers the runtime mints itself. -/
def runtimeReservedIdBase : UInt64 := UInt64.ofNat (2 ^ 63)

/-- Two independent FNV-1a style lanes; a stable mixing function, not a
cryptographic hash. -/
structure Digest128 where
  hi : UInt64 := 0xcbf29ce484222325
  lo : UInt64 := 0x9e3779b97f4a7c15
  deriving DecidableEq

namespace Digest128

def fnvPrimeHi : UInt64 := 0x00000100000001b3
def fnvPrimeLo : UInt64 := 0xc2b2ae3d27d4eb4f

def absorbByte (digest : Digest128) (byte : UInt8) : Digest128 where
  hi := (digest.hi ^^^ byte.toUInt64) * fnvPrimeHi
  lo := (digest.lo ^^^ (byte.toUInt64 + 0x9e3779b97f4a7c15)) * fnvPrimeLo

def absorbBytes (digest : Digest128) (bytes : Bytes) : Digest128 :=
  bytes.foldl absorbByte digest

def absorbU64 (digest : Digest128) (value : UInt64) : Digest128 :=
  digest.absorbBytes ((List.range 8).map fun index =>
    (value >>> (8 * index).toUInt64).toUInt8)

def absorbNat (digest : Digest128) (value : ℕ) : Digest128 :=
  digest.absorbU64 value.toUInt64

def absorbString (digest : Digest128) (bytes : Bytes) : Digest128 :=
  (digest.absorbNat bytes.length).absorbBytes bytes

def absorbKey (digest : Digest128) (key : SwitchKey) : Digest128 :=
  (digest.absorbU64 key.id.raw).absorbU64 key.generation.raw

def absorbDependent (digest : Digest128) (dependent : DependentRef) : Digest128 :=
  (digest.absorbByte dependent.kind.raw).absorbU64 dependent.id

end Digest128

end SwitchFailover.Core
