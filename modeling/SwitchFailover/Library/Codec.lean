import Mathlib

/-!
# Readers over byte strings

A reader consumes a leading part of a byte string and either produces a value
with the remaining bytes or fails.  `Reads reader bytes value` says that the
reader turns exactly `bytes` into `value`, whatever follows.  Round trips of
whole records are assembled from it field by field, and little-endian integers
are the one numeric format.
-/

namespace SwitchFailover.Library.Codec

variable {bytes rest head : List UInt8} {count width value : ℕ}

abbrev Reader (Error A : Type) := StateT (List UInt8) (Except Error) A

section Reader

variable {Error A B : Type} {reader : Reader Error A} {next : A → Reader Error B}

/-- Take exactly `count` bytes, or fail when fewer remain. -/
def takeExactly (short : Error) (count : ℕ) : Reader Error (List UInt8) := fun bytes =>
  if count ≤ bytes.length then .ok (bytes.take count, bytes.drop count) else .error short

/-- Read `count` values one after the other. -/
def readMany (reader : Reader Error A) : ℕ → Reader Error (List A)
  | 0 => pure []
  | count + 1 => do
      let value ← reader
      let values ← readMany reader count
      pure (value :: values)

/-- The reader consumes exactly `bytes` and returns `value`. -/
def Reads (reader : Reader Error A) (bytes : List UInt8) (value : A) : Prop :=
  ∀ rest, reader (bytes ++ rest) = .ok (value, rest)

theorem reads_pure (value : A) : Reads (pure value : Reader Error A) [] value := by
  intro rest
  rfl

theorem bind_of_ok {value : A} (hread : reader bytes = .ok (value, rest))
    (next : A → Reader Error B) : (reader >>= next) bytes = next value rest := by
  change (reader bytes).bind _ = _
  rw [hread]
  rfl

theorem Reads.bind_apply {value : A} (hreader : Reads reader head value)
    (next : A → Reader Error B) (rest : List UInt8) :
    (reader >>= next) (head ++ rest) = next value rest :=
  bind_of_ok (hreader rest) next

theorem Reads.bind {tail : List UInt8} {value : A} {result : B}
    (hreader : Reads reader head value) (hnext : Reads (next value) tail result) :
    Reads (reader >>= next) (head ++ tail) result := by
  intro rest
  rw [List.append_assoc, hreader.bind_apply next]
  exact hnext rest

theorem Reads.map {value : A} (hreader : Reads reader bytes value) (convert : A → B) :
    Reads (convert <$> reader) bytes (convert value) := by
  intro rest
  change (reader (bytes ++ rest)).bind _ = _
  rw [hreader rest]
  rfl

/-- The last field of a record: nothing is consumed after it. -/
theorem Reads.bindPure {value : A} (hreader : Reads reader bytes value) (convert : A → B) :
    Reads (reader >>= fun read => pure (convert read)) bytes (convert value) := by
  rw [← List.append_nil bytes]
  exact hreader.bind (reads_pure (convert value))

theorem reads_takeExactly (short : Error) (hlength : bytes.length = count) :
    Reads (takeExactly short count) bytes bytes := by
  intro rest
  subst hlength
  simp [takeExactly]

theorem reads_readMany {write : A → List UInt8} {values : List A}
    (hreads : ∀ value ∈ values, Reads reader (write value) value) :
    Reads (readMany reader values.length) (values.flatMap write) values := by
  induction values with
  | nil => exact reads_pure []
  | cons value values ih =>
    rw [List.flatMap_cons, List.length_cons]
    exact (hreads value List.mem_cons_self).bind
      ((ih fun other hother => hreads other (List.mem_cons_of_mem _ hother)).bindPure _)

/-! ### What a reader can return -/

/-- Every value the reader returns has the property. -/
def Returns (reader : Reader Error A) (property : A → Prop) : Prop :=
  ∀ bytes value rest, reader bytes = .ok (value, rest) → property value

theorem returns_pure {value : A} {property : A → Prop} (hvalue : property value) :
    Returns (pure value : Reader Error A) property := by
  intro bytes returned rest hread
  cases hread
  exact hvalue

theorem bind_eq_ok {result : B} :
    (reader >>= next) bytes = .ok (result, rest) ↔
      ∃ value middle, reader bytes = .ok (value, middle) ∧
        next value middle = .ok (result, rest) := by
  change (reader bytes).bind _ = _ ↔ _
  cases reader bytes with
  | error status => simp [Except.bind]
  | ok read =>
    obtain ⟨value, middle⟩ := read
    simp [Except.bind]

theorem Returns.bind {property : B → Prop} (hnext : ∀ value, Returns (next value) property) :
    Returns (reader >>= next) property := by
  intro bytes result rest hread
  obtain ⟨value, middle, -, hrest⟩ := bind_eq_ok.mp hread
  exact hnext value middle result rest hrest

theorem Returns.bind_of {first : A → Prop} {property : B → Prop} (hreader : Returns reader first)
    (hnext : ∀ value, first value → Returns (next value) property) :
    Returns (reader >>= next) property := by
  intro bytes result rest hread
  obtain ⟨value, middle, hfirst, hrest⟩ := bind_eq_ok.mp hread
  exact hnext value (hreader bytes value middle hfirst) middle result rest hrest

/-! ### What a value says of the bytes it was read from -/

/-- The bytes the reader consumes and the value it returns are related. -/
def Spends (reader : Reader Error A) (relation : List UInt8 → A → Prop) : Prop :=
  ∀ bytes value rest, reader bytes = .ok (value, rest) →
    ∃ spent, bytes = spent ++ rest ∧ relation spent value

/-- The bytes the reader consumes are those its value is written as. -/
def Sound (reader : Reader Error A) (write : A → List UInt8) : Prop :=
  Spends reader fun spent value => spent = write value

theorem spends_pure {value : A} {relation : List UInt8 → A → Prop} (hvalue : relation [] value) :
    Spends (pure value : Reader Error A) relation := by
  intro bytes returned rest hread
  cases hread
  exact ⟨[], rfl, hvalue⟩

theorem Spends.bind {first : List UInt8 → A → Prop} {relation : List UInt8 → B → Prop}
    (hreader : Spends reader first) (hnext : ∀ start value, first start value →
      Spends (next value) fun spent result => relation (start ++ spent) result) :
    Spends (reader >>= next) relation := by
  intro bytes result rest hread
  obtain ⟨value, middle, hfirst, hlast⟩ := bind_eq_ok.mp hread
  obtain ⟨start, hbytes, hstart⟩ := hreader bytes value middle hfirst
  obtain ⟨spent, hmiddle, hspent⟩ := hnext start value hstart middle result rest hlast
  exact ⟨start ++ spent, by rw [hbytes, hmiddle, List.append_assoc], hspent⟩

theorem Sound.bind {write : A → List UInt8} {relation : List UInt8 → B → Prop}
    (hreader : Sound reader write) (hnext : ∀ value, Spends (next value) fun spent result =>
      relation (write value ++ spent) result) : Spends (reader >>= next) relation := by
  refine Spends.bind hreader ?_
  rintro _ value rfl
  exact hnext value

theorem sound_takeExactly (short : Error) (count : ℕ) :
    Spends (takeExactly short count) fun spent value => spent = value ∧ value.length = count := by
  intro bytes value rest hread
  rw [takeExactly] at hread
  split at hread
  · rename_i henough
    cases hread
    exact ⟨_, (List.take_append_drop count bytes).symm, rfl, List.length_take_of_le henough⟩
  · cases hread

/-- A list of values that each take no more bytes than were consumed for them. -/
theorem spends_readMany {property : A → Prop} {size : A → ℕ}
    (hreader : Spends reader fun spent value => property value ∧ size value ≤ spent.length)
    (count : ℕ) :
    Spends (readMany reader count) fun spent values => values.length = count ∧
      (∀ value ∈ values, property value) ∧ (values.map size).sum ≤ spent.length := by
  induction count with
  | zero => exact spends_pure ⟨rfl, List.forall_mem_nil _, le_rfl⟩
  | succ count ih =>
    refine hreader.bind fun start value hvalue => ih.bind fun middle values hvalues => ?_
    obtain ⟨hlength, hproperty, hsize⟩ := hvalues
    refine spends_pure ⟨congrArg Nat.succ hlength,
      List.forall_mem_cons.mpr ⟨hvalue.1, hproperty⟩, ?_⟩
    rw [List.map_cons, List.sum_cons, List.append_nil, List.length_append]
    exact Nat.add_le_add hvalue.2 hsize

/-- The reader consumes this number of bytes. -/
def Consumes (reader : Reader Error A) (count : ℕ) : Prop :=
  ∀ bytes value rest, reader bytes = .ok (value, rest) → bytes.length = count + rest.length

theorem consumes_pure (value : A) : Consumes (pure value : Reader Error A) 0 := by
  intro bytes returned rest hread
  cases hread
  rw [Nat.zero_add]

theorem Consumes.bind {first last : ℕ} (hreader : Consumes reader first)
    (hnext : ∀ value, Consumes (next value) last) : Consumes (reader >>= next) (first + last) := by
  intro bytes result rest hread
  obtain ⟨value, middle, hfirst, hlast⟩ := bind_eq_ok.mp hread
  rw [hreader bytes value middle hfirst, hnext value middle result rest hlast, Nat.add_assoc]

theorem Consumes.map (hreader : Consumes reader count) (convert : A → B) :
    Consumes (convert <$> reader) count := by
  rw [← bind_pure_comp]
  exact hreader.bind fun value => consumes_pure (convert value)

theorem consumes_takeExactly (short : Error) (count : ℕ) :
    Consumes (takeExactly short count) count := by
  intro bytes value rest hread
  rw [takeExactly] at hread
  split at hread
  · cases hread
    rw [List.length_drop]
    omega
  · cases hread

end Reader

section LittleEndian

/-- The `width` low-order bytes of a number, least significant first. -/
def storeLe : ℕ → ℕ → List UInt8
  | 0, _ => []
  | width + 1, value => UInt8.ofNat (value % 256) :: storeLe width (value / 256)

/-- The number a byte string denotes, least significant byte first. -/
def loadLe : List UInt8 → ℕ
  | [] => 0
  | byte :: bytes => byte.toNat + 256 * loadLe bytes

@[simp]
theorem length_storeLe (width value : ℕ) : (storeLe width value).length = width := by
  induction width generalizing value with
  | zero => rfl
  | succ width ih => simp [storeLe, ih]

/-- The bytes one by one. -/
theorem storeLe_eq_map (width value : ℕ) :
    storeLe width value =
      (List.range width).map fun index => UInt8.ofNat (value / 256 ^ index % 256) := by
  induction width generalizing value with
  | zero => rfl
  | succ width ih =>
    rw [storeLe, ih, List.range_succ_eq_map, List.map_cons, List.map_map, pow_zero, Nat.div_one]
    congr 1
    apply List.map_congr_left
    intro index _
    rw [Function.comp_apply, Nat.div_div_eq_div_mul, Nat.succ_eq_add_one, pow_succ']

theorem loadLe_storeLe (hvalue : value < 256 ^ width) : loadLe (storeLe width value) = value := by
  induction width generalizing value with
  | zero =>
    have : value = 0 := by simpa using hvalue
    simp [storeLe, loadLe, this]
  | succ width ih =>
    have hquotient : value / 256 < 256 ^ width := by
      rw [Nat.div_lt_iff_lt_mul (by decide)]
      simpa [pow_succ] using hvalue
    have hbyte : (UInt8.ofNat (value % 256)).toNat = value % 256 := by
      simp
    rw [storeLe, loadLe, ih hquotient, hbyte]
    omega

theorem loadLe_lt (bytes : List UInt8) : loadLe bytes < 256 ^ bytes.length := by
  induction bytes with
  | nil => simp [loadLe]
  | cons byte bytes ih =>
    have hbyte : byte.toNat < 256 := byte.toNat_lt
    simp only [loadLe, List.length_cons, pow_succ]
    omega

/-- Bytes are stored back as they were read. -/
theorem storeLe_loadLe (bytes : List UInt8) : storeLe bytes.length (loadLe bytes) = bytes := by
  induction bytes with
  | nil => rfl
  | cons byte bytes ih =>
    have hbyte : (byte.toNat + 256 * loadLe bytes) % 256 = byte.toNat := by
      have hlt := byte.toNat_lt
      omega
    have hrest : (byte.toNat + 256 * loadLe bytes) / 256 = loadLe bytes := by
      have hlt := byte.toNat_lt
      omega
    rw [List.length_cons, loadLe, storeLe, hbyte, hrest, ih, UInt8.ofNat_toNat]

/-- A field that was read is stored as the bytes it was read from. -/
theorem storeLe_field (hwidth : bytes.length = width) : storeLe width (loadLe bytes) = bytes := by
  rw [← hwidth, storeLe_loadLe]

/-- A little-endian field at the front of a byte string is read back. -/
theorem loadLe_take (hvalue : value < 256 ^ width) (rest : List UInt8) :
    loadLe ((storeLe width value ++ rest).take width) = value := by
  rw [List.take_left' (length_storeLe width value), loadLe_storeLe hvalue]

theorem drop_storeLe (width value : ℕ) (rest : List UInt8) (count : ℕ) :
    (storeLe width value ++ rest).drop (width + count) = rest.drop count := by
  rw [← List.drop_drop, List.drop_left' (length_storeLe width value)]

end LittleEndian

/-- A fold whose step is injective in the state and in the element tells lists
apart that differ in one place. -/
theorem foldl_set_ne {S E : Type*} {step : S → E → S}
    (hstate : ∀ element, Function.Injective fun state => step state element)
    (helement : ∀ state, Function.Injective (step state))
    {elements : List E} {index : ℕ} {value : E} (hindex : index < elements.length)
    (hvalue : elements[index] ≠ value) (start : S) :
    (elements.set index value).foldl step start ≠ elements.foldl step start := by
  have hfold : ∀ rest : List E, Function.Injective fun state => rest.foldl step state := by
    intro rest
    induction rest with
    | nil => exact fun _ _ heq => heq
    | cons first rest ih => exact fun _ _ heq => hstate first (ih heq)
  induction elements generalizing index start with
  | nil => exact absurd hindex (Nat.not_lt_zero _)
  | cons first rest ih =>
    cases index with
    | zero =>
      intro heq
      exact hvalue (helement start (hfold rest heq)).symm
    | succ index => exact ih (Nat.lt_of_succ_lt_succ hindex) hvalue _

end SwitchFailover.Library.Codec
