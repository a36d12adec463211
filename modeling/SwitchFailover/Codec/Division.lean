import SwitchFailover.Codec.Bytes
import SwitchFailover.Library.ShiftRegister

/-!
# The checksum as a division

`crc32_ieee` looks eight steps of a shift register up at once.  The register is divided by
the reflected polynomial, it starts from the complement of the seed, and its complement is
the checksum.
-/

namespace SwitchFailover.Codec

open SwitchFailover.Core Library.ShiftRegister

/-! ## The specification -/

/-- The reflected polynomial. -/
def crcDivisor : BitVec 32 := 0xEDB88320#32

/-- A byte enters the register bit by bit, the lowest bit first. -/
def divideByte (register : BitVec 32) (byte : UInt8) : BitVec 32 :=
  feedBits crcDivisor 8 (byte.toBitVec.setWidth 32) register

/-- The bit-by-bit division of a message, with complemented input and output. -/
def crcByDivision (seed : UInt32) (bytes : Bytes) : UInt32 :=
  ⟨~~~(bytes.foldl divideByte (~~~seed.toBitVec))⟩

/-! ## The table -/

theorem and_one_ne_zero_iff (value : UInt32) :
    value &&& 1 ≠ 0 ↔ value.toBitVec.getLsbD 0 = true := by
  rw [ne_eq, ← UInt32.toBitVec_inj, UInt32.toBitVec_and]
  change ¬value.toBitVec &&& 1#32 = 0#32 ↔ _
  rw [BitVec.and_one_eq_setWidth_ofBool_getLsbD]
  cases value.toBitVec.getLsbD 0 <;> decide

/-- An entry of the table is what eight steps make of its index. -/
theorem toBitVec_crcTableEntry (index : UInt32) :
    (crcTableEntry index).toBitVec = (shift crcDivisor)^[8] index.toBitVec := by
  have hstep : Function.Semiconj UInt32.toBitVec
      (fun value => if value &&& 1 ≠ 0 then (0xEDB88320 : UInt32) ^^^ (value >>> 1)
        else value >>> 1) (shift crcDivisor) := by
    intro value
    dsimp only
    rw [shift]
    by_cases hlowest : value &&& 1 ≠ 0
    · rw [if_pos hlowest, if_pos ((and_one_ne_zero_iff value).mp hlowest)]
      rfl
    · rw [if_neg hlowest, if_neg (mt (and_one_ne_zero_iff value).mpr hlowest)]
      rfl
  rw [crcTableEntry, List.foldl_const, List.length_range]
  exact hstep.iterate_right 8 index

theorem getLsbD_lowByte {index : ℕ} (hindex : index < 32) :
    (0xff#32).getLsbD index = decide (index < 8) := by
  revert index
  decide

theorem byte_moved_out (byte : UInt8) : (byte.toBitVec.setWidth 32) >>> 8 = 0#32 := by
  apply BitVec.eq_of_getLsbD_eq
  intro index _
  rw [BitVec.getLsbD_ushiftRight, BitVec.getLsbD_setWidth, BitVec.getLsbD_of_ge _ _ (by omega),
    Bool.and_false, BitVec.getLsbD_zero]

/-- One table step moves the register by eight places. -/
theorem toBitVec_crcUpdate (crc : UInt32) (byte : UInt8) :
    (crcUpdate crc byte).toBitVec =
      (shift crcDivisor)^[8] (crc.toBitVec ^^^ byte.toBitVec.setWidth 32) := by
  have hmoved : (crc.toBitVec ^^^ byte.toBitVec.setWidth 32) >>> 8 = crc.toBitVec >>> 8 := by
    rw [BitVec.ushiftRight_xor_distrib, byte_moved_out, BitVec.xor_zero]
  rw [iterate_shift_split fun index hindex => getLsbD_lowByte hindex, hmoved, crcUpdate,
    UInt32.toBitVec_xor, toBitVec_crcTableEntry]
  rfl

theorem toBitVec_crcUpdate_eq_divideByte (crc : UInt32) (byte : UInt8) :
    (crcUpdate crc byte).toBitVec = divideByte crc.toBitVec byte := by
  rw [toBitVec_crcUpdate, divideByte, feedBits_eq 8 (byte_moved_out byte)]

/-- The table computes the division. -/
theorem crc32IeeeFrom_eq_crcByDivision (seed : UInt32) (bytes : Bytes) :
    crc32IeeeFrom seed bytes = crcByDivision seed bytes := by
  have hfold : ∀ crc : UInt32, (bytes.foldl crcUpdate crc).toBitVec =
      bytes.foldl divideByte crc.toBitVec := by
    induction bytes with
    | nil => exact fun _ => rfl
    | cons byte bytes ih =>
      intro crc
      rw [List.foldl_cons, List.foldl_cons, ih, toBitVec_crcUpdate_eq_divideByte]
  apply UInt32.toBitVec_inj.mp
  rw [crc32IeeeFrom, UInt32.toBitVec_not, hfold, UInt32.toBitVec_not]
  rfl

/-- The checksum of a first part is the seed of the second. -/
theorem crc32IeeeFrom_append (seed : UInt32) (front back : Bytes) :
    crc32IeeeFrom (crc32IeeeFrom seed front) back = crc32IeeeFrom seed (front ++ back) := by
  rw [crc32IeeeFrom, crc32IeeeFrom, crc32IeeeFrom, UInt32.not_not, List.foldl_append]

/-! ## What a step forgets

The divisor has its highest bit set, so nothing is lost in a step: the register before is
known from the byte, and the byte from the register before. -/

theorem eightShifts_injective : Function.Injective (shift crcDivisor)^[8] :=
  (shift_injective (by decide)).iterate 8

theorem crcUpdate_left_injective (byte : UInt8) :
    Function.Injective fun crc => crcUpdate crc byte := by
  intro left right hupdate
  have hregister := congrArg UInt32.toBitVec hupdate
  dsimp only at hregister
  rw [toBitVec_crcUpdate, toBitVec_crcUpdate] at hregister
  exact UInt32.toBitVec_inj.mp (BitVec.xor_left_inj _ |>.mp (eightShifts_injective hregister))

theorem crcUpdate_right_injective (crc : UInt32) : Function.Injective (crcUpdate crc) := by
  intro first second hupdate
  have hregister := congrArg UInt32.toBitVec hupdate
  rw [toBitVec_crcUpdate, toBitVec_crcUpdate] at hregister
  have hbyte := BitVec.xor_right_inj _ |>.mp (eightShifts_injective hregister)
  have hback := congrArg (BitVec.setWidth 8) hbyte
  rw [BitVec.setWidth_setWidth_of_le _ (by decide), BitVec.setWidth_setWidth_of_le _ (by decide),
    BitVec.setWidth_eq, BitVec.setWidth_eq] at hback
  exact UInt8.toBitVec_inj.mp hback

end SwitchFailover.Codec
