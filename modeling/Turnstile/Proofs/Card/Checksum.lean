import Turnstile.Card.Checksum
import Turnstile.Proofs.Text.Utf8

/-!
# The checksum, a bit at a time

The checksum of a frame is told by a shift register that takes one bit after the other.

* `Checksum.serial`: what the register holds at the end, low octet first.
* `foldl_shift_xor`: the register is linear, so that what it starts with and what it takes are
  shifted apart.
* `step_eq_foldl_shift`: one octet taken at once is eight bits.
* `of_eq_serial`: so the two checksums are the same.
-/

namespace Turnstile.Checksum

/-! ## The shift register -/

/-- What a bit that falls out of the register does to it: the polynomial is added, or nothing. -/
def feedback (bit : Bool) : UInt16 :=
  if bit then 0x8408 else 0

/-- The register after one more bit: its lowest bit falls out, and is fed back if it differs from
the bit that is taken. -/
def shift (crc : UInt16) (bit : Bool) : UInt16 :=
  (crc >>> 1) ^^^ feedback (crc.toBitVec.getLsbD 0 ^^ bit)

/-- The bits of an octet, least significant first. -/
def bits (byte : UInt8) : List Bool :=
  (List.range 8).map byte.toNat.testBit

/-- The register after the bits of some octets. -/
def serialRegister (bs : Bytes) : UInt16 :=
  (bs.flatMap bits).foldl shift 0x6363

/-- The checksum of octets taken a bit at a time, low octet first. -/
def serial (bs : Bytes) : Bytes :=
  [(serialRegister bs).toUInt8, (serialRegister bs >>> 8).toUInt8]

/-! ## It is linear -/

theorem feedback_xor : ∀ a b, feedback (a ^^ b) = feedback a ^^^ feedback b := by decide

theorem shift_xor (x y : UInt16) (a b : Bool) :
    shift (x ^^^ y) (a ^^ b) = shift x a ^^^ shift y b := by
  have hdown : (x ^^^ y) >>> 1 = (x >>> 1) ^^^ (y >>> 1) := UInt16.shiftRight_xor
  have hlow : ((x ^^^ y).toBitVec.getLsbD 0 ^^ (a ^^ b)) =
      ((x.toBitVec.getLsbD 0 ^^ a) ^^ (y.toBitVec.getLsbD 0 ^^ b)) := by
    rw [UInt16.toBitVec_xor, BitVec.getLsbD_xor, Bool.xor_assoc, Bool.xor_assoc, Bool.xor_left_comm a]
  unfold shift
  rw [hdown, hlow, feedback_xor]
  ac_rfl

/-- What the register starts with may be split: the one part takes the bits, the other none. -/
theorem foldl_shift_xor (taken : List Bool) (x y : UInt16) :
    taken.foldl shift (x ^^^ y) =
      (List.replicate taken.length false).foldl shift x ^^^ taken.foldl shift y := by
  induction taken generalizing x y with
  | nil => rfl
  | cons bit taken ih =>
    have hone : shift (x ^^^ y) bit = shift x false ^^^ shift y bit := by
      rw [← shift_xor, Bool.false_xor]
    rw [List.length_cons, List.replicate_succ, List.foldl_cons, List.foldl_cons, List.foldl_cons,
      hone, ih]

/-! ## Eight bits at once -/

/-- The register after eight bits that are not set. -/
def shiftOctet (crc : UInt16) : UInt16 :=
  (List.replicate 8 false).foldl shift crc

theorem shiftOctet_xor (x y : UInt16) : shiftOctet (x ^^^ y) = shiftOctet x ^^^ shiftOctet y :=
  foldl_shift_xor (List.replicate 8 false) x y

/-- An octet that is in the register already is taken without a trace. -/
theorem foldl_shift_self (byte : UInt8) : (bits byte).foldl shift byte.toUInt16 = 0 :=
  octet_forall (p := fun byte => (bits byte).foldl shift byte.toUInt16 = 0) (by decide +kernel) byte

/-- The low octet of the register is fed back. -/
theorem shiftOctet_low (byte : UInt8) : shiftOctet byte.toUInt16 = step 0 byte :=
  octet_forall (p := fun byte => shiftOctet byte.toUInt16 = step 0 byte) (by decide +kernel) byte

/-- The high octet only moves down. -/
theorem shiftOctet_high (byte : UInt8) : shiftOctet (byte.toUInt16 <<< 8) = byte.toUInt16 :=
  octet_forall (p := fun byte => shiftOctet (byte.toUInt16 <<< 8) = byte.toUInt16)
    (by decide +kernel) byte

theorem octet_high (crc : UInt16) : (crc >>> 8).toUInt8.toUInt16 = crc >>> 8 := by
  have hlt : crc.toNat < 2 ^ 16 := crc.toNat_lt
  have hshift : (crc >>> 8).toNat = crc.toNat / 2 ^ 8 := by
    rw [UInt16.toNat_shiftRight, Nat.shiftRight_eq_div_pow]
    rfl
  apply UInt16.toNat_inj.1
  rw [UInt8.toNat_toUInt16, UInt16.toNat_toUInt8, hshift]
  omega

/-- The register is its two octets. -/
theorem eq_octets (crc : UInt16) : crc = ((crc >>> 8) <<< 8) ^^^ crc.toUInt8.toUInt16 := by
  have height : ((8 : UInt16).toBitVec % 16).toNat = 8 := by decide
  apply UInt16.toBitVec_inj.1
  ext i hi
  simp only [UInt16.toBitVec_xor, UInt16.toBitVec_shiftLeft, UInt16.toBitVec_shiftRight,
    UInt8.toBitVec_toUInt16, UInt16.toBitVec_toUInt8, BitVec.shiftLeft_eq', BitVec.ushiftRight_eq',
    height, BitVec.getElem_xor, BitVec.getElem_shiftLeft, BitVec.getElem_setWidth,
    BitVec.getLsbD_setWidth]
  rw [← BitVec.getLsbD_eq_getElem hi]
  by_cases hlow : i < 8
  · simp [hlow]
  · have hup : 8 + (i - 8) = i := by omega
    simp [hlow, hup]

/-- A step takes what the octet and the low octet of the register differ in. -/
theorem step_eq_xor (crc : UInt16) (byte : UInt8) :
    step crc byte = (crc >>> 8) ^^^ step 0 (byte ^^^ crc.toUInt8) := by
  have hzero : (0 : UInt16).toUInt8 = 0 := rfl
  simp only [step, hzero, UInt8.xor_zero, UInt16.zero_shiftRight, UInt16.zero_xor, UInt16.xor_assoc]

/-- **One octet taken at once is eight bits.** -/
theorem step_eq_foldl_shift (crc : UInt16) (byte : UInt8) :
    step crc byte = (bits byte).foldl shift crc := by
  -- the octet is added to the register before it is taken, so that eight bits of nothing remain
  have hadd : crc = (crc ^^^ byte.toUInt16) ^^^ byte.toUInt16 := by
    rw [UInt16.xor_assoc, UInt16.xor_self, UInt16.xor_zero]
  have htaken : (bits byte).foldl shift crc = shiftOctet (crc ^^^ byte.toUInt16) := by
    conv_lhs => rw [hadd, foldl_shift_xor, foldl_shift_self, UInt16.xor_zero]
    rfl
  have hsplit : crc ^^^ byte.toUInt16 =
      ((crc >>> 8).toUInt8.toUInt16 <<< 8) ^^^ (byte ^^^ crc.toUInt8).toUInt16 := by
    conv_lhs => rw [eq_octets crc]
    rw [octet_high, UInt8.toUInt16_xor, UInt16.xor_assoc, UInt16.xor_comm byte.toUInt16]
  rw [htaken, hsplit, shiftOctet_xor, shiftOctet_high, shiftOctet_low, octet_high, step_eq_xor]

theorem register_eq_serialRegister (bs : Bytes) : register bs = serialRegister bs := by
  unfold register serialRegister
  generalize (0x6363 : UInt16) = crc
  induction bs generalizing crc with
  | nil => rfl
  | cons byte bs ih =>
    rw [List.foldl_cons, List.flatMap_cons, List.foldl_append, ih, step_eq_foldl_shift]

/-- **The checksum is the serial one**, of octets of any number. -/
theorem of_eq_serial (bs : Bytes) : of bs = serial bs := by
  rw [of, serial, register_eq_serialRegister]

end Turnstile.Checksum
