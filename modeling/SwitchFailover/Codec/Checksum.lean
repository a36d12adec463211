import SwitchFailover.Codec.Division

/-!
# What the checksum detects

The running remainder is a bijection of the remainder before and of the byte fed
into it.  Two messages of one length that differ in a single byte therefore never
have the same checksum, whatever their length.
-/

namespace SwitchFailover.Codec

open SwitchFailover.Core Library.Codec

variable {bytes whole : Bytes} {index : ℕ} {value : UInt8}

/-- A single changed byte changes the checksum, from any seed. -/
theorem crc32IeeeFrom_set_ne (seed : UInt32) (hindex : index < bytes.length)
    (hvalue : bytes[index] ≠ value) :
    crc32IeeeFrom seed (bytes.set index value) ≠ crc32IeeeFrom seed bytes := by
  intro heq
  rw [crc32IeeeFrom, crc32IeeeFrom, UInt32.not_inj] at heq
  exact foldl_set_ne crcUpdate_left_injective crcUpdate_right_injective hindex hvalue _ heq

theorem crc32Ieee_set_ne (hindex : index < bytes.length) (hvalue : bytes[index] ≠ value) :
    crc32Ieee (bytes.set index value) ≠ crc32Ieee bytes :=
  crc32IeeeFrom_set_ne 0 hindex hvalue

/-- The checksum is the division of the message, it continues from the checksum of an
earlier part, and it tells messages apart that differ in one byte. -/
theorem crc32_algebra (seed : UInt32) (bytes : Bytes) :
    crc32IeeeFrom seed bytes = crcByDivision seed bytes ∧
      (∀ back : Bytes, crc32IeeeFrom (crc32IeeeFrom seed bytes) back =
        crc32IeeeFrom seed (bytes ++ back)) ∧
      ∀ (index : ℕ) (value : UInt8) (hindex : index < bytes.length), bytes[index] ≠ value →
        crc32IeeeFrom seed (bytes.set index value) ≠ crc32IeeeFrom seed bytes := by
  refine ⟨crc32IeeeFrom_eq_crcByDivision seed bytes, crc32IeeeFrom_append seed bytes, ?_⟩
  intro index value hindex hvalue
  exact crc32IeeeFrom_set_ne seed hindex hvalue

/-- The check value of the polynomial, and the message with its first digit changed. -/
theorem crc32_algebra_digits :
    crc32IeeeFrom 0 (text "123456789") = 0xCBF43926 ∧
      crc32IeeeFrom 0 ((text "123456789").set 0 0x39) ≠ crc32IeeeFrom 0 (text "123456789") := by
  refine ⟨by decide +kernel, ?_⟩
  exact (crc32_algebra 0 (text "123456789")).2.2 0 0x39 (by decide +kernel) (by decide +kernel)

/-- A message followed by its checksum. -/
def Checked (whole : Bytes) : Prop :=
  ∃ bytes, whole = bytes ++ storeLe 4 (crc32Ieee bytes).toNat

/-- A message carries its checksum exactly if the stored number is the computed one. -/
theorem checked_iff {size : ℕ} (hlength : whole.length = size + 4) :
    Checked whole ↔ (loadLe ((whole.drop size).take 4)).toUInt32 = crc32Ieee (whole.take size) := by
  have hlast : (whole.drop size).take 4 = whole.drop size := by
    apply List.take_of_length_le
    rw [List.length_drop]
    omega
  have hsize : (whole.drop size).length = 4 := by
    rw [List.length_drop]
    omega
  rw [hlast]
  constructor
  · rintro ⟨bytes, rfl⟩
    have hbytes : bytes.length = size := by
      simpa using hlength
    rw [List.drop_left' hbytes, List.take_left' hbytes, loadLe_storeLe (UInt32.toNat_lt _)]
    exact UInt32.ofNat_toNat
  · intro hstored
    have hsmall := loadLe_lt (whole.drop size)
    rw [hsize] at hsmall
    refine ⟨whole.take size, ?_⟩
    rw [← hstored, show (loadLe (whole.drop size)).toUInt32.toNat = loadLe (whole.drop size) from
      UInt32.toNat_ofNat_of_lt' hsmall, storeLe_field hsize, List.take_append_drop]

/-- A message that carries its checksum no longer does so after one byte of it, or of
the checksum, was changed. -/
theorem Checked.not_set (hchecked : Checked whole) (hindex : index < whole.length)
    (hvalue : whole[index] ≠ value) : ¬ Checked (whole.set index value) := by
  obtain ⟨bytes, rfl⟩ := hchecked
  rintro ⟨other, heq⟩
  have hlength : bytes.length = other.length := by
    have hsize := congrArg List.length heq
    simpa using hsize
  by_cases hbody : index < bytes.length
  · -- a byte of the message: the checksums differ, their copies do not
    rw [List.set_append_left _ _ hbody] at heq
    obtain ⟨rfl, hchecksum⟩ := List.append_inj heq (by rw [List.length_set, hlength])
    rw [List.getElem_append_left hbody] at hvalue
    have hsame := congrArg loadLe hchecksum
    rw [loadLe_storeLe (UInt32.toNat_lt _), loadLe_storeLe (UInt32.toNat_lt _)] at hsame
    exact crc32Ieee_set_ne hbody hvalue (UInt32.toNat_inj.mp hsame.symm)
  · -- a byte of the checksum: the messages are the same
    have hoffset := not_lt.mp hbody
    rw [List.set_append_right _ _ hoffset] at heq
    obtain ⟨rfl, hchecksum⟩ := List.append_inj heq hlength
    rw [List.getElem_append_right hoffset] at hvalue
    have hkept := congrArg (fun copy => copy[index - bytes.length]?) hchecksum
    rw [List.length_append] at hindex
    rw [List.getElem?_set_self (by omega), List.getElem?_eq_getElem (by omega)] at hkept
    exact hvalue (Option.some.inj hkept).symm

end SwitchFailover.Codec
