import Mathlib.Logic.Function.Basic
import Vpipe.Lib.ByteMemory
import Vpipe.Lib.Lfsr

/-! The reflected CRC-32: the kernel's `crc32_le`, one bit at a time, and the table the tools
look their bytes up in. -/
namespace Vpipe.Crc
open Vpipe.Lib Vpipe.Lib.ByteMemory

def polynomial : BitVec 32 := 0xedb88320#32

def crcBit (c : BitVec 32) : BitVec 32 :=
  if c.getLsbD 0 then polynomial ^^^ (c >>> 1) else c >>> 1

def crcByte (c : BitVec 32) (b : UInt8) : BitVec 32 := crcBit^[8] (c ^^^ b.toBitVec.setWidth 32)

def crc32Le (seed : BitVec 32) (bytes : List UInt8) : BitVec 32 := bytes.foldl crcByte seed

def frameCrc (bytes : List UInt8) : Nat := (~~~crc32Le (~~~0#32) bytes).toNat

-- The check value of CRC-32/ISO-HDLC: the bytes of "123456789".
example : frameCrc [0x31,0x32,0x33,0x34,0x35,0x36,0x37,0x38,0x39] = 0xcbf43926 := by decide +kernel

structure Statics where
  crc32Table : Nat → BitVec 32 := fun _ => 0
  crc32Ready : Bool := false

/- for (bit = 0; bit < 8; bit++), from c = i -/
def tableEntry (i : Nat) : BitVec 32 :=
  loop 8 (fun _ c => if c &&& 1#32 ≠ 0#32 then 0xedb88320#32 ^^^ (c >>> 1) else c >>> 1) (BitVec.ofNat 32 i)

def vpipeCrc32Init (s : Statics) : Statics :=
  if s.crc32Ready then s
  else ⟨loop 256 (fun i table => Function.update table i (tableEntry i)) s.crc32Table,true⟩

def tableByte (table : Nat → BitVec 32) (crc : BitVec 32) (b : UInt8) : BitVec 32 :=
  table ((crc ^^^ b.toBitVec.setWidth 32) &&& 0xff#32).toNat ^^^ (crc >>> 8)

def vpipeCrc32 (data : List UInt8) (s : Statics) : Nat × Statics :=
  let s := vpipeCrc32Init s
  ((~~~data.foldl (tableByte s.crc32Table) (~~~0#32)).toNat,s)

theorem tableEntryShifts (i : Nat) : tableEntry i = (Lfsr.shift polynomial)^[8] (BitVec.ofNat 32 i) := by
  have step (c : BitVec 32) : (if c &&& 1#32 ≠ 0#32 then 0xedb88320#32 ^^^ (c >>> 1) else c >>> 1) =
      Lfsr.shift polynomial c := by
    have bit : c &&& 1#32 ≠ 0#32 ↔ c.getLsbD 0 = true := by
      rw [BitVec.and_one_eq_setWidth_ofBool_getLsbD]
      cases c.getLsbD 0 <;> decide
    simp only [Lfsr.shift, bit, polynomial]
  simp only [tableEntry, step]
  rfl

def Statics.Sound (s : Statics) : Prop :=
  s.crc32Ready = true → ∀ i, i < 256 → s.crc32Table i = tableEntry i

theorem tableFilled (table : Nat → BitVec 32) :
    ∀ i, i < 256 → loop 256 (fun i table => Function.update table i (tableEntry i)) table i = tableEntry i := by
  refine loopInvariant (fun n (table : Nat → BitVec 32) => ∀ i, i < n → table i = tableEntry i) ?_ ?_
  · intro i below
    omega
  · intro n table _ filled i below
    rw [Function.update_apply]
    split
    · rename_i same
      rw [same]
    · exact filled i (by omega)

theorem initSound {s : Statics} (sound : s.Sound) :
    (vpipeCrc32Init s).Sound ∧ (vpipeCrc32Init s).crc32Ready = true := by
  unfold vpipeCrc32Init
  split
  · rename_i ready
    exact ⟨sound,ready⟩
  · exact ⟨fun _ => tableFilled s.crc32Table,rfl⟩

theorem tableByteBits {table : Nat → BitVec 32} (filled : ∀ i, i < 256 → table i = tableEntry i)
    (crc : BitVec 32) (b : UInt8) : tableByte table crc b = crcByte crc b := by
  let mixed := crc ^^^ b.toBitVec.setWidth 32
  have index : (mixed &&& 0xff#32).toNat < 256 := by
    rw [BitVec.toNat_and]
    exact Nat.lt_of_le_of_lt Nat.and_le_right (by decide)
  have mask : ∀ i, i < 8 → (0xff#32).getLsbD i = true := by decide
  have low : ∀ i, i < 8 → (mixed &&& 0xff#32).getLsbD i = mixed.getLsbD i := by
    intro i below
    rw [BitVec.getLsbD_and, mask i below, Bool.and_true]
  have rest : (mixed &&& 0xff#32) >>> 8 = 0#32 := by
    rw [BitVec.ushiftRight_and_distrib]
    exact BitVec.and_zero
  have octet : b.toBitVec.setWidth 32 >>> 8 = 0#32 := by
    apply BitVec.eq_of_toNat_eq
    have := b.toBitVec.isLt
    simp only [BitVec.toNat_ushiftRight, BitVec.toNat_setWidth, Nat.shiftRight_eq_div_pow, BitVec.toNat_ofNat]
    omega
  calc tableByte table crc b
      = (Lfsr.shift polynomial)^[8] (mixed &&& 0xff#32) ^^^ (crc >>> 8) := by
        rw [tableByte, filled _ index, tableEntryShifts, BitVec.ofNat_toNat, BitVec.setWidth_eq]
    _ = (Lfsr.shift polynomial)^[8] (mixed &&& 0xff#32) ^^^ (mixed >>> 8) := by
        rw [BitVec.ushiftRight_xor_distrib, octet, BitVec.xor_zero]
    _ = (Lfsr.shift polynomial)^[8] mixed := (Lfsr.shiftsSplit polynomial 8 mixed low rest).symm
    _ = crcByte crc b := rfl

theorem crc32Bits {s : Statics} (sound : s.Sound) (data : List UInt8) :
    (vpipeCrc32 data s).1 = frameCrc data ∧ (vpipeCrc32 data s).2.Sound := by
  obtain ⟨sound, ready⟩ := initSound sound
  have byte : tableByte (vpipeCrc32Init s).crc32Table = crcByte := by
    funext crc b
    exact tableByteBits (sound ready) crc b
  refine ⟨?_,sound⟩
  simp only [vpipeCrc32, byte]
  rfl

def checksummed (earlier : List (List UInt8)) : Statics :=
  earlier.foldl (fun s data => (vpipeCrc32 data s).2) ⟨fun _ => 0,false⟩

theorem checksummedSound (earlier : List (List UInt8)) : (checksummed earlier).Sound := by
  have start : Statics.Sound ⟨fun _ => 0,false⟩ := by
    intro ready
    contradiction
  unfold checksummed
  generalize (⟨fun _ => 0,false⟩ : Statics) = s at start ⊢
  induction earlier generalizing s with
  | nil => exact start
  | cons data earlier ih => exact ih _ (crc32Bits start data).2

/-- Whatever the process has checksummed before, the table-driven checksum of a byte string is
the bitwise one: seeded with ones, complemented at the end, as device_run stores it. -/
theorem tableMatchesBits (earlier : List (List UInt8)) (data : List UInt8) :
    (vpipeCrc32 data (checksummed earlier)).1 = (~~~crc32Le 0xffffffff#32 data).toNat ∧
      (vpipeCrc32 data (checksummed earlier)).1 = frameCrc data := by
  have same := (crc32Bits (checksummedSound earlier) data).1
  exact ⟨same,same⟩

def octet (b : UInt8) : BitVec 32 := b.toBitVec.setWidth 32

theorem octetNarrow (b : UInt8) : Lfsr.Narrow 8 (octet b) := by
  intro i high
  rw [octet, BitVec.getLsbD_setWidth, BitVec.getLsbD_of_ge b.toBitVec i high, Bool.and_false]

theorem octetInjective : Function.Injective octet := by
  intro a b same
  apply UInt8.toBitVec_inj.mp
  have narrow := congrArg (BitVec.setWidth 8) same
  simpa [octet] using narrow

theorem crcAbsorbs (bytes : List UInt8) (seed : BitVec 32) :
    crc32Le seed bytes = (bytes.map octet).foldl (Lfsr.absorb polynomial 8) seed := by
  rw [List.foldl_map]
  rfl

theorem frameCrcBursts {a b : List UInt8} (same : a.length = b.length) (differ : a ≠ b) {first : Nat}
    (window : ∀ i, a[i]? ≠ b[i]? → first ≤ i ∧ i < first + 4) : frameCrc a ≠ frameCrc b := by
  have narrow : ∀ bytes : List UInt8, ∀ c ∈ bytes.map octet, Lfsr.Narrow 8 c := by
    intro bytes c member
    obtain ⟨x, _, rfl⟩ := List.mem_map.mp member
    exact octetNarrow x
  have octets : a.map octet ≠ b.map octet := (List.map_injective_iff.mpr octetInjective).ne differ
  have changed : ∀ i, (a.map octet)[i]? ≠ (b.map octet)[i]? → first ≤ i ∧ i < first + 4 := by
    intro i change
    refine window i (fun equal => change ?_)
    rw [List.getElem?_map, List.getElem?_map, equal]
  have states := Lfsr.windowDetected (p := polynomial) (by decide) (narrow a) (narrow b)
    (by rw [List.length_map, List.length_map, same]) octets (by decide) changed (~~~0#32)
  intro equal
  apply states
  rw [← crcAbsorbs, ← crcAbsorbs]
  exact BitVec.not_inj.mp (BitVec.eq_of_toNat_eq equal)

/-- The checksums of two strings of one length that differ, but only within four consecutive
bytes, are different, whatever either process has checksummed before. -/
theorem burstsDetected (earlier earlier' : List (List UInt8)) {a b : List UInt8} (same : a.length = b.length)
    (differ : a ≠ b) {first : Nat} (window : ∀ i, a[i]? ≠ b[i]? → first ≤ i ∧ i < first + 4) :
    (vpipeCrc32 a (checksummed earlier)).1 ≠ (vpipeCrc32 b (checksummed earlier')).1 := by
  rw [(crc32Bits (checksummedSound earlier) a).1, (crc32Bits (checksummedSound earlier') b).1]
  exact frameCrcBursts same differ window

theorem swappedBytesDetected :
    (vpipeCrc32 [1,2,3,4,5,6] (checksummed [])).1 ≠ (vpipeCrc32 [1,5,4,3,2,6] (checksummed [[7]])).1 := by
  have window : ∀ i, ([1,2,3,4,5,6] : List UInt8)[i]? ≠ ([1,5,4,3,2,6] : List UInt8)[i]? → 1 ≤ i ∧
      i < 1 + 4 := by
    intro i differ
    match i with
    | 0 => exact absurd rfl differ
    | 1 | 2 | 3 | 4 => decide
    | i+5 => exact absurd rfl differ
  exact burstsDetected [] [[7]] rfl (by decide) window

end Vpipe.Crc
