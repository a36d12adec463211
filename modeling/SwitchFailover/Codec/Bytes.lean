import SwitchFailover.Core.Identity
import SwitchFailover.Library.Codec

/-!
# Canonical byte streams and integrity checks

The writer is bounded and fails closed: the first write that would pass the
limit is dropped, together with everything after it, and the bytes written so
far are what the caller gets.  The reader's first failure is sticky, so a reader
that stops at its first failure reports the same status.
-/

namespace SwitchFailover.Codec

open SwitchFailover.Core Library.Codec

/-! ## Writing -/

structure ByteWriter where
  limit : ℕ := 2 ^ 30
  bytes : Bytes := []
  failed : Bool := false

def ByteWriter.raw (writer : ByteWriter) (data : Bytes) : ByteWriter :=
  if writer.failed then writer
  else if writer.limit < data.length ∨ writer.limit - data.length < writer.bytes.length then
    { writer with failed := true }
  else { writer with bytes := writer.bytes ++ data }

/-- The bytes left after a sequence of writes. -/
def written (limit : ℕ) (chunks : List Bytes) : Bytes :=
  (chunks.foldl ByteWriter.raw { limit := limit }).bytes

/-- The limit of a writer whose limit is never set. -/
def defaultWriterLimit : ℕ := 2 ^ 30

def checkedCount (count : ℕ) : ℕ := if count > 0xffffffff then 0xffffffff else count

def writeU8 (value : UInt8) : List Bytes := [[value]]
def writeU16 (value : UInt16) : List Bytes := [storeLe 2 value.toNat]
def writeU32 (value : UInt32) : List Bytes := [storeLe 4 value.toNat]
def writeU64 (value : UInt64) : List Bytes := [storeLe 8 value.toNat]
def writeBoolean (value : Bool) : List Bytes := writeU8 (if value then 1 else 0)
def writeString (string : Bytes) : List Bytes :=
  [storeLe 4 (checkedCount string.length), string]

/-- A `std::size_t` written as an unsigned 64-bit field. -/
def writeSize (value : ℕ) : List Bytes := writeU64 value.toUInt64

/-- An element count written with a bare cast to 32 bits. -/
def writeCount (count : ℕ) : List Bytes := writeU32 count.toUInt32

theorem foldl_raw_bytes (chunks : List Bytes) (writer : ByteWriter)
    (hwriter : writer.failed = false)
    (hroom : writer.bytes.length + chunks.flatten.length ≤ writer.limit) :
    (chunks.foldl ByteWriter.raw writer).bytes = writer.bytes ++ chunks.flatten := by
  induction chunks generalizing writer with
  | nil => simp
  | cons chunk chunks ih =>
    have hlength : (chunk :: chunks).flatten.length =
        chunk.length + chunks.flatten.length := by simp
    rw [hlength] at hroom
    have hfits : ¬(writer.limit < chunk.length ∨
        writer.limit - chunk.length < writer.bytes.length) := by omega
    have hstep : writer.raw chunk = { writer with bytes := writer.bytes ++ chunk } := by
      rw [ByteWriter.raw, if_neg (by simp [hwriter]), if_neg hfits]
    rw [List.foldl_cons, hstep, ih]
    · simp
    · exact hwriter
    · simpa [Nat.add_assoc] using hroom

/-- Writes that stay within the limit are concatenated. -/
theorem written_eq_flatten {limit : ℕ} {chunks : List Bytes}
    (hroom : chunks.flatten.length ≤ limit) : written limit chunks = chunks.flatten := by
  have hbytes := foldl_raw_bytes chunks { limit := limit } rfl (by simpa using hroom)
  simpa [written] using hbytes

/-- A writer never takes back what it has written. -/
theorem prefix_foldl_raw (chunks : List Bytes) (writer : ByteWriter) :
    writer.bytes <+: (chunks.foldl ByteWriter.raw writer).bytes := by
  induction chunks generalizing writer with
  | nil => exact List.prefix_refl _
  | cons chunk chunks ih =>
    refine List.IsPrefix.trans ?_ (ih (writer.raw chunk))
    rw [ByteWriter.raw]
    split_ifs
    · exact List.prefix_refl _
    · exact List.prefix_refl _
    · exact List.prefix_append _ _

/-- What fits at the start is written, whatever follows. -/
theorem prefix_written {limit : ℕ} {start : List Bytes} (rest : List Bytes)
    (hroom : start.flatten.length ≤ limit) : start.flatten <+: written limit (start ++ rest) := by
  have hstart := foldl_raw_bytes start { limit := limit } rfl (by simpa using hroom)
  rw [written, List.foldl_append]
  refine List.IsPrefix.trans ?_ (prefix_foldl_raw rest _)
  rw [hstart]
  exact List.prefix_refl _

/-- A writer does not write past its limit. -/
theorem length_written_le_limit (limit : ℕ) (chunks : List Bytes) :
    (written limit chunks).length ≤ limit := by
  have hfold : ∀ writer : ByteWriter, writer.bytes.length ≤ writer.limit →
      (chunks.foldl ByteWriter.raw writer).bytes.length ≤ writer.limit := by
    induction chunks with
    | nil => exact fun writer hwriter => hwriter
    | cons chunk chunks ih =>
      intro writer hwriter
      have hlimit : (writer.raw chunk).limit = writer.limit := by
        rw [ByteWriter.raw]
        split_ifs <;> rfl
      have hstep : (writer.raw chunk).bytes.length ≤ (writer.raw chunk).limit := by
        rw [hlimit, ByteWriter.raw]
        split_ifs with hfailed hfull
        · exact hwriter
        · exact hwriter
        · rw [List.length_append]
          omega
      exact (ih _ hstep).trans_eq hlimit
  exact hfold { limit } (Nat.zero_le _)

/-! ## Reading -/

abbrev ByteReader := Reader Status

def defaultElementLimit : ℕ := 2 ^ 24

def readFailure {A : Type} (code : Code) (message : Bytes) : ByteReader A := fun _ =>
  .error (Status.failure code message)

def readBytes (count : ℕ) : ByteReader Bytes :=
  takeExactly (Status.failure .truncated (text "read past the end of the canonical document"))
    count

def readU8 : ByteReader UInt8 := (fun bytes => bytes.headD 0) <$> readBytes 1
def readU16 : ByteReader UInt16 := (fun bytes => (loadLe bytes).toUInt16) <$> readBytes 2
def readU32 : ByteReader UInt32 := (fun bytes => (loadLe bytes).toUInt32) <$> readBytes 4
def readU64 : ByteReader UInt64 := (fun bytes => (loadLe bytes).toUInt64) <$> readBytes 8

def readBoolean : ByteReader Bool := do
  let value ← readU8
  if value > 1 then readFailure .invalid (text "boolean field is not 0 or 1")
  else pure (value == 1)

def readString (elementLimit : ℕ) : ByteReader Bytes := do
  let length ← readU32
  if length.toNat > elementLimit then
    readFailure .exhausted (text "declared string length exceeds the element limit")
  else readBytes length.toNat

/-- Read an element count and check it against the collection bound and against
the bytes that are still available. -/
def readListCount (elementLimit minimumElementBytes : ℕ) : ByteReader ℕ := do
  let declared ← readU32
  if declared.toNat > elementLimit then
    readFailure .exhausted (text "declared element count exceeds the element limit")
  else do
    let rest ← get
    if minimumElementBytes ≠ 0 ∧ declared.toNat > rest.length / minimumElementBytes then
      readFailure .truncated
        (text "declared element count does not fit in the remaining bytes")
    else pure declared.toNat

def requireEnd : ByteReader Unit := fun bytes =>
  if bytes.isEmpty then .ok ((), [])
  else .error (Status.failure .invalid (text "trailing bytes after the canonical document"))

/-- Refuse with the given status unless the condition holds. -/
def readRequire (condition : Bool) (code : Code) (message : Bytes) : ByteReader Unit :=
  if condition then pure () else readFailure code message

/-- Run a decoder over a whole payload. -/
def decodeWith {A : Type} (reader : ByteReader A) (payload : Bytes) : Result A :=
  (reader payload).map Prod.fst

theorem reads_bytes {count : ℕ} {bytes : Bytes} (hlength : bytes.length = count) :
    Reads (readBytes count) bytes bytes :=
  reads_takeExactly _ hlength

theorem reads_u8 (value : UInt8) : Reads readU8 (writeU8 value).flatten value := by
  have hbyte : Reads (readBytes 1) [value] [value] := reads_bytes rfl
  exact hbyte.map fun bytes => bytes.headD 0

/-- A fixed-width integer is read back, whatever integer type it is cast to. -/
theorem reads_littleEndian {A : Type} (cast : ℕ → A) (width : ℕ) {value : ℕ}
    (hvalue : value < 256 ^ width) :
    Reads ((fun bytes => cast (loadLe bytes)) <$> readBytes width) (storeLe width value)
      (cast value) := by
  have hbytes := (reads_bytes (length_storeLe width value)).map fun bytes =>
    cast (loadLe bytes)
  rw [loadLe_storeLe hvalue] at hbytes
  exact hbytes

theorem reads_u16 (value : UInt16) : Reads readU16 (writeU16 value).flatten value := by
  have hread := reads_littleEndian Nat.toUInt16 2 value.toNat_lt
  simpa only [readU16, writeU16, List.flatten_singleton, UInt16.ofNat_toNat,
    Nat.toUInt16] using hread

theorem reads_u32 (value : UInt32) : Reads readU32 (writeU32 value).flatten value := by
  have hread := reads_littleEndian Nat.toUInt32 4 value.toNat_lt
  simpa only [readU32, writeU32, List.flatten_singleton, UInt32.ofNat_toNat,
    Nat.toUInt32] using hread

theorem reads_u64 (value : UInt64) : Reads readU64 (writeU64 value).flatten value := by
  have hread := reads_littleEndian Nat.toUInt64 8 value.toNat_lt
  simpa only [readU64, writeU64, List.flatten_singleton, UInt64.ofNat_toNat,
    Nat.toUInt64] using hread

theorem reads_boolean (value : Bool) : Reads readBoolean (writeBoolean value).flatten value := by
  rw [← List.append_nil (writeBoolean value).flatten]
  refine (reads_u8 (if value then 1 else 0)).bind ?_
  cases value with
  | false => exact reads_pure false
  | true => exact reads_pure true

theorem reads_string {elementLimit : ℕ} {string : Bytes}
    (hlimit : string.length ≤ elementLimit) (hwidth : string.length < 2 ^ 32) :
    Reads (readString elementLimit) (writeString string).flatten string := by
  have hcount : checkedCount string.length = string.length := by
    rw [checkedCount, if_neg (by omega)]
  have hraw : (string.length.toUInt32).toNat = string.length := by
    simpa using Nat.mod_eq_of_lt hwidth
  have hlength := reads_u32 string.length.toUInt32
  rw [writeU32, hraw, List.flatten_singleton] at hlength
  rw [writeString, hcount, readString]
  simp only [List.flatten_cons, List.flatten_nil, List.append_nil]
  refine hlength.bind ?_
  rw [hraw, if_neg (by omega)]
  exact reads_bytes rfl

theorem readListCount_apply (elementLimit minimumElementBytes : ℕ) (declared : UInt32)
    (bytes : Bytes) :
    readListCount elementLimit minimumElementBytes ((writeU32 declared).flatten ++ bytes) =
      if declared.toNat > elementLimit then
        .error (Status.failure .exhausted (text "declared element count exceeds the element limit"))
      else if minimumElementBytes ≠ 0 ∧ declared.toNat > bytes.length / minimumElementBytes then
        .error (Status.failure .truncated
          (text "declared element count does not fit in the remaining bytes"))
      else .ok (declared.toNat, bytes) := by
  rw [readListCount, (reads_u32 declared).bind_apply]
  split
  · rfl
  · simp only [bind, StateT.bind, get, getThe, MonadStateOf.get, StateT.get, pure, Except.pure,
      Except.bind]
    split <;> rfl

/-- A count and as many elements are read back, if no element is shorter than the least
length the count is checked against. -/
theorem reads_list {A : Type} {reader : ByteReader A} {write : A → List Bytes}
    {values : List A} {elementLimit minimumElementBytes : ℕ}
    (hlimit : values.length ≤ elementLimit) (hwidth : values.length < 2 ^ 32)
    (hreads : ∀ value ∈ values, Reads reader (write value).flatten value)
    (hminimum : ∀ value ∈ values, minimumElementBytes ≤ (write value).flatten.length) :
    Reads (readListCount elementLimit minimumElementBytes >>= readMany reader)
      (writeCount values.length ++ values.flatMap write).flatten values := by
  have hraw : values.length.toUInt32.toNat = values.length := UInt32.toNat_ofNat_of_lt' hwidth
  have hbytes : (values.flatMap write).flatten = values.flatMap fun value =>
      (write value).flatten := by
    rw [List.flatMap_def, List.flatMap_def, List.flatten_flatten, List.map_map]
    rfl
  have hlong : values.length * minimumElementBytes ≤ (values.flatMap write).flatten.length := by
    have hsum := List.card_nsmul_le_sum (values.map fun value => (write value).flatten.length)
      minimumElementBytes (List.forall_mem_map.mpr hminimum)
    rwa [List.length_map, smul_eq_mul, ← List.length_flatMap, ← hbytes] at hsum
  intro rest
  have hcount : readListCount elementLimit minimumElementBytes
      ((writeCount values.length).flatten ++ ((values.flatMap write).flatten ++ rest)) =
      .ok (values.length, (values.flatMap write).flatten ++ rest) := by
    have haffordable : ¬(minimumElementBytes ≠ 0 ∧
        values.length > ((values.flatMap write).flatten ++ rest).length / minimumElementBytes) := by
      rintro ⟨hsome, hmany⟩
      rw [gt_iff_lt, Nat.div_lt_iff_lt_mul (Nat.pos_of_ne_zero hsome), List.length_append] at hmany
      omega
    rw [writeCount, readListCount_apply, hraw, if_neg (not_lt.mpr hlimit), if_neg haffordable]
  rw [List.flatten_append, List.append_assoc, bind_of_ok hcount, hbytes]
  exact reads_readMany hreads rest

/-! ## Identities -/

def writeKey (key : SwitchKey) : List Bytes :=
  writeU64 key.id.raw ++ writeU64 key.generation.raw

def readKey : ByteReader SwitchKey := do
  let id ← readU64
  let generation ← readU64
  pure ⟨⟨id⟩, ⟨generation⟩⟩

def writeDependent (dependent : DependentRef) : List Bytes :=
  writeU8 dependent.kind.raw ++ writeU64 dependent.id

def readDependent (message : Bytes) : ByteReader DependentRef := do
  let kind ← readU8
  let id ← readU64
  match DependentKind.ofRaw kind with
  | some kind => pure ⟨kind, id⟩
  | none => readFailure .invalid message

def writeBoot (boot : BootIncarnation) : List Bytes :=
  writeU64 boot.processId ++ writeU64 boot.bootOrdinal ++ writeU64 boot.nonceHi ++
    writeU64 boot.nonceLo

def readBoot : ByteReader BootIncarnation := do
  let processId ← readU64
  let bootOrdinal ← readU64
  let nonceHi ← readU64
  let nonceLo ← readU64
  pure ⟨processId, bootOrdinal, nonceHi, nonceLo⟩

theorem reads_key (key : SwitchKey) : Reads readKey (writeKey key).flatten key := by
  rw [writeKey, List.flatten_append]
  exact (reads_u64 key.id.raw).bind ((reads_u64 key.generation.raw).bindPure _)

theorem reads_dependent {dependent : DependentRef} (hkind : dependent.kind ≠ .unknown)
    (message : Bytes) :
    Reads (readDependent message) (writeDependent dependent).flatten dependent := by
  rw [writeDependent, List.flatten_append]
  refine (reads_u8 dependent.kind.raw).bind ?_
  rw [← List.append_nil (writeU64 dependent.id).flatten]
  refine (reads_u64 dependent.id).bind ?_
  rw [DependentKind.ofRaw_eq_some.mpr ⟨hkind, rfl⟩]
  exact reads_pure _

theorem reads_boot (boot : BootIncarnation) :
    Reads readBoot (writeBoot boot).flatten boot := by
  simp only [writeBoot, List.flatten_append, List.append_assoc]
  exact (reads_u64 boot.processId).bind ((reads_u64 boot.bootOrdinal).bind
    ((reads_u64 boot.nonceHi).bind ((reads_u64 boot.nonceLo).bindPure _)))

/-! ## Sizes -/

/-- The number of bytes of all writes. -/
def byteCount (chunks : List Bytes) : ℕ := chunks.flatten.length

theorem length_flatten_chunks (chunks : List Bytes) : chunks.flatten.length = byteCount chunks :=
  rfl

@[simp]
theorem byteCount_append (left right : List Bytes) :
    byteCount (left ++ right) = byteCount left + byteCount right := by
  rw [byteCount, List.flatten_append, List.length_append]
  rfl

@[simp]
theorem byteCount_flatMap {A : Type} (values : List A) (write : A → List Bytes) :
    byteCount (values.flatMap write) = (values.map fun value => byteCount (write value)).sum := by
  induction values with
  | nil => rfl
  | cons value values ih =>
    rw [List.flatMap_cons, byteCount_append, ih, List.map_cons, List.sum_cons]

@[simp]
theorem byteCount_u8 (value : UInt8) : byteCount (writeU8 value) = 1 := rfl

@[simp]
theorem byteCount_u16 (value : UInt16) : byteCount (writeU16 value) = 2 := rfl

@[simp]
theorem byteCount_u32 (value : UInt32) : byteCount (writeU32 value) = 4 := rfl

@[simp]
theorem byteCount_u64 (value : UInt64) : byteCount (writeU64 value) = 8 := rfl

@[simp]
theorem byteCount_boolean (value : Bool) : byteCount (writeBoolean value) = 1 := rfl

@[simp]
theorem byteCount_count (count : ℕ) : byteCount (writeCount count) = 4 := rfl

@[simp]
theorem byteCount_size (value : ℕ) : byteCount (writeSize value) = 8 := rfl

@[simp]
theorem byteCount_string (string : Bytes) :
    byteCount (writeString string) = 4 + string.length := by
  simp [byteCount, writeString]

@[simp]
theorem byteCount_key (key : SwitchKey) : byteCount (writeKey key) = 16 := rfl

@[simp]
theorem byteCount_dependent (dependent : DependentRef) :
    byteCount (writeDependent dependent) = 9 := rfl

@[simp]
theorem byteCount_boot (boot : BootIncarnation) : byteCount (writeBoot boot) = 32 := rfl

/-! ### Lists of keys and identities -/

section Lists

variable {domain : IdDomain} {elementLimit : ℕ}

theorem reads_keys {keys : List SwitchKey} (hcount : keys.length ≤ elementLimit)
    (hwidth : elementLimit < 2 ^ 32) :
    Reads (readListCount elementLimit 16 >>= readMany readKey)
      (writeCount keys.length ++ keys.flatMap writeKey).flatten keys :=
  reads_list hcount (hcount.trans_lt hwidth) (fun key _ => reads_key key)
    fun key _ => (byteCount_key key).ge

/-- Identities are written and read as numbers. -/
theorem reads_ids {ids : List (StrongId domain)} (hcount : ids.length ≤ elementLimit)
    (hwidth : elementLimit < 2 ^ 32) :
    Reads (readListCount elementLimit 8 >>= readMany readU64)
      (writeCount ids.length ++ ids.flatMap fun id => writeU64 id.raw).flatten
      (ids.map StrongId.raw) := by
  have hraws : (ids.map StrongId.raw).length ≤ elementLimit := by rwa [List.length_map]
  have hlist := reads_list hraws (hraws.trans_lt hwidth) (fun raw _ => reads_u64 raw)
    fun raw _ => (byteCount_u64 raw).ge
  rwa [List.length_map, List.flatMap_map] at hlist

theorem map_mk_map_raw (ids : List (StrongId domain)) :
    (ids.map StrongId.raw).map StrongId.mk = ids := by
  rw [List.map_map]
  exact List.map_id _

end Lists

/-! ## What the readers accept -/

theorem sound_littleEndian {A : Type} (cast : ℕ → A) (toNat : A → ℕ) (width : ℕ)
    (hcast : ∀ value, value < 256 ^ width → toNat (cast value) = value) :
    Sound ((fun bytes => cast (loadLe bytes)) <$> readBytes width)
      fun value => storeLe width (toNat value) := by
  rw [← bind_pure_comp]
  refine (sound_takeExactly _ width).bind ?_
  rintro start bytes ⟨rfl, hlength⟩
  refine spends_pure ?_
  have hsmall := loadLe_lt start
  rw [hlength] at hsmall
  change start ++ [] = storeLe width (toNat (cast (loadLe start)))
  rw [List.append_nil, hcast _ hsmall, storeLe_field hlength]

theorem sound_u8 : Sound readU8 fun value => (writeU8 value).flatten := by
  rw [readU8, ← bind_pure_comp]
  refine (sound_takeExactly _ 1).bind ?_
  rintro start bytes ⟨rfl, hlength⟩
  refine spends_pure ?_
  obtain ⟨byte, rfl⟩ := List.length_eq_one_iff.mp hlength
  rfl

theorem sound_u16 : Sound readU16 fun value => (writeU16 value).flatten :=
  sound_littleEndian Nat.toUInt16 UInt16.toNat 2 fun _ hvalue => UInt16.toNat_ofNat_of_lt' hvalue

theorem sound_u32 : Sound readU32 fun value => (writeU32 value).flatten :=
  sound_littleEndian Nat.toUInt32 UInt32.toNat 4 fun _ hvalue => UInt32.toNat_ofNat_of_lt' hvalue

theorem sound_u64 : Sound readU64 fun value => (writeU64 value).flatten :=
  sound_littleEndian Nat.toUInt64 UInt64.toNat 8 fun _ hvalue => UInt64.toNat_ofNat_of_lt' hvalue

theorem sound_boolean : Sound readBoolean fun value => (writeBoolean value).flatten := by
  refine sound_u8.bind fun raw => ?_
  split
  · intro bytes value rest hread
    cases hread
  · rename_i hsmall
    refine spends_pure ?_
    have hbit : raw = 0 ∨ raw = 1 := by
      have hle : raw.toNat ≤ 1 := not_lt.mp hsmall
      rcases Nat.le_one_iff_eq_zero_or_eq_one.mp hle with hzero | hone
      · exact Or.inl (UInt8.toNat_inj.mp hzero)
      · exact Or.inr (UInt8.toNat_inj.mp hone)
    rcases hbit with rfl | rfl <;> rfl

theorem spends_string (elementLimit : ℕ) :
    Spends (readString elementLimit) fun spent string =>
      string.length ≤ elementLimit ∧ string.length < 2 ^ 32 ∧
        spent = (writeString string).flatten := by
  refine sound_u32.bind fun length => ?_
  split
  · intro bytes value rest hread
    cases hread
  · rename_i hlimit
    intro bytes string rest hread
    obtain ⟨spent, hbytes, rfl, hlength⟩ := sound_takeExactly _ _ bytes string rest hread
    have hwidth : spent.length < 2 ^ 32 := by
      rw [hlength]
      exact length.toNat_lt
    refine ⟨spent, hbytes, by omega, hwidth, ?_⟩
    rw [writeString, checkedCount, if_neg (by omega), hlength]
    simp [writeU32]

theorem spends_require (condition : Bool) (code : Code) (message : Bytes) :
    Spends (readRequire condition code message) fun spent _ => spent = [] := by
  rw [readRequire]
  split
  · exact spends_pure rfl
  · intro bytes value rest hread
    cases hread

theorem sound_key : Sound readKey fun key => (writeKey key).flatten :=
  sound_u64.bind fun _ => sound_u64.bind fun _ => spends_pure (by
    simp only [writeKey, List.flatten_append, List.append_nil])

theorem sound_boot : Sound readBoot fun boot => (writeBoot boot).flatten :=
  sound_u64.bind fun _ => sound_u64.bind fun _ => sound_u64.bind fun _ => sound_u64.bind fun _ =>
    spends_pure (by simp only [writeBoot, List.flatten_append, List.append_nil, List.append_assoc])

theorem spends_dependent (message : Bytes) :
    Spends (readDependent message) fun spent dependent =>
      dependent.kind ≠ .unknown ∧ spent = (writeDependent dependent).flatten := by
  refine sound_u8.bind fun raw => sound_u64.bind fun id => ?_
  split
  · rename_i kind hkind
    obtain ⟨hknown, rfl⟩ := DependentKind.ofRaw_eq_some.mp hkind
    refine spends_pure ⟨hknown, ?_⟩
    rw [List.append_nil, writeDependent, List.flatten_append]
  · intro bytes value rest hread
    cases hread

/-- A list of at most as many elements as the limit allows, each of them no longer than
the bytes that were consumed for it. -/
theorem spends_list {A : Type} {reader : ByteReader A} {property : A → Prop} {size : A → ℕ}
    (hreader : Spends reader fun spent value => property value ∧ size value ≤ spent.length)
    (elementLimit minimumElementBytes : ℕ) :
    Spends (readListCount elementLimit minimumElementBytes >>= readMany reader)
      fun spent values => values.length ≤ elementLimit ∧ (∀ value ∈ values, property value) ∧
        4 + (values.map size).sum ≤ spent.length := by
  have hcount : Spends (readListCount elementLimit minimumElementBytes) fun spent count =>
      count ≤ elementLimit ∧ spent.length = 4 := by
    intro bytes count rest hread
    obtain ⟨declared, middle, hdeclared, -⟩ := bind_eq_ok.mp hread
    obtain ⟨spent, rfl, rfl⟩ := sound_u32 bytes declared middle hdeclared
    rw [readListCount_apply] at hread
    split at hread
    · cases hread
    · rename_i hlimit
      split at hread
      · cases hread
      · cases hread
        exact ⟨_, rfl, not_lt.mp hlimit, by simp [writeU32]⟩
  refine hcount.bind fun start count hstart => ?_
  intro bytes values rest hread
  obtain ⟨spent, hbytes, hlength, hproperty, hsize⟩ :=
    spends_readMany hreader count bytes values rest hread
  refine ⟨spent, hbytes, hlength.trans_le hstart.1, hproperty, ?_⟩
  rw [List.length_append, hstart.2]
  exact Nat.add_le_add_left hsize 4

/-- A list of elements that are all written with the same number of bytes. -/
theorem spends_listOf {A : Type} {reader : ByteReader A} {write : A → List Bytes} {width : ℕ}
    (hsound : Sound reader fun value => (write value).flatten)
    (hwidth : ∀ value, byteCount (write value) = width)
    (elementLimit minimumElementBytes : ℕ) :
    Spends (readListCount elementLimit minimumElementBytes >>= readMany reader)
      fun spent values => values.length ≤ elementLimit ∧
        4 + width * values.length ≤ spent.length := by
  have hreader : Spends reader fun spent _ => True ∧ width ≤ spent.length := by
    intro bytes value rest hread
    obtain ⟨spent, hbytes, rfl⟩ := hsound bytes value rest hread
    exact ⟨_, hbytes, trivial, (hwidth value).ge⟩
  intro bytes values rest hread
  obtain ⟨spent, hbytes, hcount, -, hsize⟩ :=
    spends_list hreader elementLimit minimumElementBytes bytes values rest hread
  rw [List.map_const', List.sum_replicate, smul_eq_mul, mul_comm] at hsize
  exact ⟨spent, hbytes, hcount, hsize⟩

/-! ## What the readers consume -/

theorem consumes_u8 : Consumes readU8 1 := (consumes_takeExactly _ 1).map _

theorem consumes_u64 : Consumes readU64 8 := (consumes_takeExactly _ 8).map _

theorem consumes_boolean : Consumes readBoolean 1 := by
  change Consumes readBoolean (1 + 0)
  refine consumes_u8.bind fun value => ?_
  split
  · intro bytes returned rest hread
    cases hread
  · exact consumes_pure _

/-! ## Integrity -/

/-- One entry of the CRC table: eight shift steps of the reflected polynomial. -/
def crcTableEntry (index : UInt32) : UInt32 :=
  (List.range 8).foldl
    (fun value _ =>
      if value &&& 1 ≠ 0 then (0xEDB88320 : UInt32) ^^^ (value >>> 1) else value >>> 1)
    index

def crcUpdate (crc : UInt32) (byte : UInt8) : UInt32 :=
  crcTableEntry ((crc ^^^ byte.toUInt32) &&& 0xff) ^^^ (crc >>> 8)

/-- `crc32_ieee` with its seed. -/
def crc32IeeeFrom (seed : UInt32) (bytes : Bytes) : UInt32 :=
  ~~~(bytes.foldl crcUpdate (~~~seed))

/-- `crc32_ieee` with the default seed. -/
def crc32Ieee (bytes : Bytes) : UInt32 := crc32IeeeFrom 0 bytes

end SwitchFailover.Codec
