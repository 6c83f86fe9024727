import Mathlib.Data.List.Nodup
import Mathlib.Data.List.Basic
import Mathlib.Data.List.GetD

/-!
# Characters

The names of files are in Unicode on the disk, and in the OEM code page 437 in the paths. `ccsbcs.c`
converts between them, and `ff_wtoupper` is what takes two names for the same.
-/

namespace D2xCios.FatFs

/-- `WCHAR` -/
abbrev WChar := UInt16

/-- `Tbl`: the Unicode characters of the OEM characters from `0x80` on. -/
def tbl : List WChar := [
  0x00C7, 0x00FC, 0x00E9, 0x00E2, 0x00E4, 0x00E0, 0x00E5, 0x00E7,
  0x00EA, 0x00EB, 0x00E8, 0x00EF, 0x00EE, 0x00EC, 0x00C4, 0x00C5,
  0x00C9, 0x00E6, 0x00C6, 0x00F4, 0x00F6, 0x00F2, 0x00FB, 0x00F9,
  0x00FF, 0x00D6, 0x00DC, 0x00A2, 0x00A3, 0x00A5, 0x20A7, 0x0192,
  0x00E1, 0x00ED, 0x00F3, 0x00FA, 0x00F1, 0x00D1, 0x00AA, 0x00BA,
  0x00BF, 0x2310, 0x00AC, 0x00BD, 0x00BC, 0x00A1, 0x00AB, 0x00BB,
  0x2591, 0x2592, 0x2593, 0x2502, 0x2524, 0x2561, 0x2562, 0x2556,
  0x2555, 0x2563, 0x2551, 0x2557, 0x255D, 0x255C, 0x255B, 0x2510,
  0x2514, 0x2534, 0x252C, 0x251C, 0x2500, 0x253C, 0x255E, 0x255F,
  0x255A, 0x2554, 0x2569, 0x2566, 0x2560, 0x2550, 0x256C, 0x2567,
  0x2568, 0x2564, 0x2565, 0x2559, 0x2558, 0x2552, 0x2553, 0x256B,
  0x256A, 0x2518, 0x250C, 0x2588, 0x2584, 0x258C, 0x2590, 0x2580,
  0x03B1, 0x00DF, 0x0393, 0x03C0, 0x03A3, 0x03C3, 0x00B5, 0x03C4,
  0x03A6, 0x0398, 0x03A9, 0x03B4, 0x221E, 0x03C6, 0x03B5, 0x2229,
  0x2261, 0x00B1, 0x2265, 0x2264, 0x2320, 0x2321, 0x00F7, 0x2248,
  0x00B0, 0x2219, 0x00B7, 0x221A, 0x207F, 0x00B2, 0x25A0, 0x00A0]

/-- `ff_convert` -/
def ffConvert (src : WChar) (toUnicode : Bool) : WChar :=
  if src < 0x80 then src
  else if toUnicode then
    if 0x100 ≤ src then 0 else tbl.getD (src - 0x80).toNat 0
  else UInt16.ofNat (tbl.idxOf src + 0x80) &&& 0xFF

/-- `tbl_lower` -/
def tblLower : List WChar := [
  0x61, 0x62, 0x63, 0x64, 0x65, 0x66, 0x67, 0x68, 0x69, 0x6A, 0x6B, 0x6C,
  0x6D, 0x6E, 0x6F, 0x70, 0x71, 0x72, 0x73, 0x74, 0x75, 0x76, 0x77, 0x78,
  0x79, 0x7A, 0xA1, 0x00A2, 0x00A3, 0x00A5, 0x00AC, 0x00AF, 0xE0, 0xE1, 0xE2, 0xE3,
  0xE4, 0xE5, 0xE6, 0xE7, 0xE8, 0xE9, 0xEA, 0xEB, 0xEC, 0xED, 0xEE, 0xEF,
  0xF0, 0xF1, 0xF2, 0xF3, 0xF4, 0xF5, 0xF6, 0xF8, 0xF9, 0xFA, 0xFB, 0xFC,
  0xFD, 0xFE, 0x0FF, 0x101, 0x103, 0x105, 0x107, 0x109, 0x10B, 0x10D, 0x10F, 0x111,
  0x113, 0x115, 0x117, 0x119, 0x11B, 0x11D, 0x11F, 0x121, 0x123, 0x125, 0x127, 0x129,
  0x12B, 0x12D, 0x12F, 0x131, 0x133, 0x135, 0x137, 0x13A, 0x13C, 0x13E, 0x140, 0x142,
  0x144, 0x146, 0x148, 0x14B, 0x14D, 0x14F, 0x151, 0x153, 0x155, 0x157, 0x159, 0x15B,
  0x15D, 0x15F, 0x161, 0x163, 0x165, 0x167, 0x169, 0x16B, 0x16D, 0x16F, 0x171, 0x173,
  0x175, 0x177, 0x17A, 0x17C, 0x17E, 0x192, 0x3B1, 0x3B2, 0x3B3, 0x3B4, 0x3B5, 0x3B6,
  0x3B7, 0x3B8, 0x3B9, 0x3BA, 0x3BB, 0x3BC, 0x3BD, 0x3BE, 0x3BF, 0x3C0, 0x3C1, 0x3C3,
  0x3C4, 0x3C5, 0x3C6, 0x3C7, 0x3C8, 0x3C9, 0x3CA, 0x430, 0x431, 0x432, 0x433, 0x434,
  0x435, 0x436, 0x437, 0x438, 0x439, 0x43A, 0x43B, 0x43C, 0x43D, 0x43E, 0x43F, 0x440,
  0x441, 0x442, 0x443, 0x444, 0x445, 0x446, 0x447, 0x448, 0x449, 0x44A, 0x44B, 0x44C,
  0x44D, 0x44E, 0x44F, 0x451, 0x452, 0x453, 0x454, 0x455, 0x456, 0x457, 0x458, 0x459,
  0x45A, 0x45B, 0x45C, 0x45E, 0x45F, 0x2170, 0x2171, 0x2172, 0x2173, 0x2174, 0x2175, 0x2176,
  0x2177, 0x2178, 0x2179, 0x217A, 0x217B, 0x217C, 0x217D, 0x217E, 0x217F, 0xFF41, 0xFF42, 0xFF43,
  0xFF44, 0xFF45, 0xFF46, 0xFF47, 0xFF48, 0xFF49, 0xFF4A, 0xFF4B, 0xFF4C, 0xFF4D, 0xFF4E, 0xFF4F,
  0xFF50, 0xFF51, 0xFF52, 0xFF53, 0xFF54, 0xFF55, 0xFF56, 0xFF57, 0xFF58, 0xFF59, 0xFF5A]

/-- `tbl_upper` -/
def tblUpper : List WChar := [
  0x41, 0x42, 0x43, 0x44, 0x45, 0x46, 0x47, 0x48, 0x49, 0x4A, 0x4B, 0x4C,
  0x4D, 0x4E, 0x4F, 0x50, 0x51, 0x52, 0x53, 0x54, 0x55, 0x56, 0x57, 0x58,
  0x59, 0x5A, 0x21, 0xFFE0, 0xFFE1, 0xFFE5, 0xFFE2, 0xFFE3, 0xC0, 0xC1, 0xC2, 0xC3,
  0xC4, 0xC5, 0xC6, 0xC7, 0xC8, 0xC9, 0xCA, 0xCB, 0xCC, 0xCD, 0xCE, 0xCF,
  0xD0, 0xD1, 0xD2, 0xD3, 0xD4, 0xD5, 0xD6, 0xD8, 0xD9, 0xDA, 0xDB, 0xDC,
  0xDD, 0xDE, 0x178, 0x100, 0x102, 0x104, 0x106, 0x108, 0x10A, 0x10C, 0x10E, 0x110,
  0x112, 0x114, 0x116, 0x118, 0x11A, 0x11C, 0x11E, 0x120, 0x122, 0x124, 0x126, 0x128,
  0x12A, 0x12C, 0x12E, 0x130, 0x132, 0x134, 0x136, 0x139, 0x13B, 0x13D, 0x13F, 0x141,
  0x143, 0x145, 0x147, 0x14A, 0x14C, 0x14E, 0x150, 0x152, 0x154, 0x156, 0x158, 0x15A,
  0x15C, 0x15E, 0x160, 0x162, 0x164, 0x166, 0x168, 0x16A, 0x16C, 0x16E, 0x170, 0x172,
  0x174, 0x176, 0x179, 0x17B, 0x17D, 0x191, 0x391, 0x392, 0x393, 0x394, 0x395, 0x396,
  0x397, 0x398, 0x399, 0x39A, 0x39B, 0x39C, 0x39D, 0x39E, 0x39F, 0x3A0, 0x3A1, 0x3A3,
  0x3A4, 0x3A5, 0x3A6, 0x3A7, 0x3A8, 0x3A9, 0x3AA, 0x410, 0x411, 0x412, 0x413, 0x414,
  0x415, 0x416, 0x417, 0x418, 0x419, 0x41A, 0x41B, 0x41C, 0x41D, 0x41E, 0x41F, 0x420,
  0x421, 0x422, 0x423, 0x424, 0x425, 0x426, 0x427, 0x428, 0x429, 0x42A, 0x42B, 0x42C,
  0x42D, 0x42E, 0x42F, 0x401, 0x402, 0x403, 0x404, 0x405, 0x406, 0x407, 0x408, 0x409,
  0x40A, 0x40B, 0x40C, 0x40E, 0x40F, 0x2160, 0x2161, 0x2162, 0x2163, 0x2164, 0x2165, 0x2166,
  0x2167, 0x2168, 0x2169, 0x216A, 0x216B, 0x216C, 0x216D, 0x216E, 0x216F, 0xFF21, 0xFF22, 0xFF23,
  0xFF24, 0xFF25, 0xFF26, 0xFF27, 0xFF28, 0xFF29, 0xFF2A, 0xFF2B, 0xFF2C, 0xFF2D, 0xFF2E, 0xFF2F,
  0xFF30, 0xFF31, 0xFF32, 0xFF33, 0xFF34, 0xFF35, 0xFF36, 0xFF37, 0xFF38, 0xFF39, 0xFF3A]

/-- `ff_wtoupper` -/
def ffWtoupper (chr : WChar) : WChar := ((tblLower.zip tblUpper).lookup chr).getD chr

/-! ## Upper case -/

/-- A character is of upper case, or `ff_wtoupper` has its upper case in the table. -/
theorem ffWtoupper_cases (chr : WChar) :
    ffWtoupper chr = chr ∨ (chr, ffWtoupper chr) ∈ tblLower.zip tblUpper := by
  unfold ffWtoupper
  cases found : (tblLower.zip tblUpper).lookup chr with
  | none => exact .inl rfl
  | some upper =>
    obtain ⟨before, after, whole, -⟩ := List.lookup_eq_some_iff.1 found
    rw [whole]
    exact .inr (List.mem_append_right _ List.mem_cons_self)

/-- The tables for upper case have no zeros. -/
theorem upper_some : ∀ p ∈ tblLower.zip tblUpper, p.1 ≠ 0 ∧ p.2 ≠ 0 := by
  have checked : ((tblLower.zip tblUpper).all fun p => p.1 ≠ 0 ∧ p.2 ≠ 0) = true := by
    decide +kernel
  exact fun p member => of_decide_eq_true (List.all_eq_true.1 checked p member)

/-- Only the end of a name is the upper case of it. -/
theorem ffWtoupper_eq_zero {chr : WChar} : ffWtoupper chr = 0 ↔ chr = 0 := by
  rcases ffWtoupper_cases chr with same | listed
  · rw [same]
  · exact iff_of_false (upper_some _ listed).2 (upper_some _ listed).1

/-! ## The code page -/

/-- No character is in the code page twice. -/
theorem tbl_nodup : tbl.Nodup := by
  have codes : (tbl.map UInt16.toNat).Nodup := by decide +kernel
  exact codes.of_map

theorem tbl_length : tbl.length = 128 := by decide +kernel

/-- The table has no ASCII characters. -/
theorem tbl_ge : ∀ c ∈ tbl, ¬ c < 0x80 := by
  have checked : (tbl.all fun c => ¬ c < 0x80) = true := by decide +kernel
  exact fun c member => of_decide_eq_true (List.all_eq_true.1 checked c member)

/-- The place of a character in the table is that of an OEM character. -/
theorem oem_toNat {i : Nat} (i_lt : i < 128) :
    (UInt16.ofNat (i + 0x80) &&& 0xFF).toNat = i + 0x80 := by
  have word : (UInt16.ofNat (i + 0x80)).toNat = i + 0x80 :=
    UInt16.toNat_ofNat_of_lt (Nat.lt_trans (Nat.add_lt_add_right i_lt _) (by decide))
  rw [UInt16.toNat_and, word]
  change (i + 128) &&& (2 ^ 8 - 1) = _
  rw [Nat.and_two_pow_sub_one_eq_mod, Nat.mod_eq_of_lt (by omega)]

/-- An OEM character is that of its Unicode character. -/
theorem ffConvert_oem {src : WChar} (oem : src < 0x100) :
    ffConvert (ffConvert src true) false = src := by
  by_cases ascii : src < 0x80
  · have same : ffConvert src true = src := if_pos ascii
    rw [same, ffConvert, if_pos ascii]
  · have src_lt : src.toNat < 256 := UInt16.lt_iff_toNat_lt.1 oem
    have src_ge : 128 ≤ src.toNat := Nat.not_lt.1 fun lt => ascii (UInt16.lt_iff_toNat_lt.2 lt)
    have place : (src - 0x80).toNat = src.toNat - 128 :=
      UInt16.toNat_sub_of_le _ _ (UInt16.le_iff_toNat_le.2 src_ge)
    have index : src.toNat - 128 < tbl.length := by
      rw [tbl_length]
      omega
    have unicode : ffConvert src true = tbl[src.toNat - 128] := by
      rw [ffConvert, if_neg ascii, if_pos rfl, if_neg (UInt16.not_le.2 oem), place,
        List.getD_eq_getElem _ _ index]
    rw [unicode, ffConvert, if_neg (tbl_ge _ (List.getElem_mem index)),
      if_neg Bool.false_ne_true, tbl_nodup.idxOf_getElem]
    refine UInt16.toNat_inj.1 ?_
    rw [oem_toNat (by omega)]
    omega

/-- A Unicode character with an OEM character is that of this one. -/
theorem ffConvert_unicode {src : WChar} (some : ffConvert src false ≠ 0) :
    ffConvert (ffConvert src false) true = src ∧ ffConvert src false < 0x100 := by
  by_cases ascii : src < 0x80
  · have same : ffConvert src false = src := if_pos ascii
    rw [same, ffConvert, if_pos ascii]
    exact ⟨rfl, UInt16.lt_of_lt_of_le ascii (by decide)⟩
  · have oem : ffConvert src false = UInt16.ofNat (tbl.idxOf src + 0x80) &&& 0xFF := by
      rw [ffConvert, if_neg ascii, if_neg Bool.false_ne_true]
    have index : tbl.idxOf src < tbl.length := by
      refine Nat.lt_of_le_of_ne List.idxOf_le_length fun none => some ?_
      rw [oem, none, tbl_length]
      decide
    have index' := tbl_length ▸ index
    have value := oem_toNat index'
    rw [← oem] at value
    have small : ffConvert src false < 0x100 := by
      refine UInt16.lt_iff_toNat_lt.2 ?_
      rw [value]
      change _ < 256
      omega
    have high : ¬ ffConvert src false < 0x80 := fun lt => by
      have lt' := UInt16.lt_iff_toNat_lt.1 lt
      rw [value] at lt'
      exact absurd lt' (Nat.not_lt.2 (Nat.le_add_left _ _))
    have place : (ffConvert src false - 0x80).toNat = tbl.idxOf src := by
      rw [UInt16.toNat_sub_of_le _ _ (UInt16.not_lt.1 high), value]
      exact Nat.add_sub_cancel _ _
    refine ⟨?_, small⟩
    rw [ffConvert, if_neg high, if_pos rfl, if_neg (UInt16.not_le.2 small), place,
      List.getD_eq_getElem _ _ index, List.getElem_idxOf]

end D2xCios.FatFs
