import Mathlib.Data.List.Basic
import Mathlib.Data.List.TakeWhile
import PipingAssembly.Text.Utf8

/-!
# Texts as bytes

The bytes of a text are decoded to the text. Each character has between one and four bytes, the
first of which tells their number, and no further byte is outside of the range that the first one
allows. So a zero byte is a zero character, and nothing else has one.
-/

namespace PipingAssembly.Text

/-! ### Bytes of a text -/

private theorem toList_loop_eq (bytes : ByteArray) (i : Nat) (read : List UInt8) :
    ByteArray.toList.loop bytes i read = read.reverse ++ bytes.data.toList.drop i := by
  fun_induction ByteArray.toList.loop bytes i read with
  | case1 i read h ih =>
    have hi : i < bytes.data.toList.length := by simpa using h
    rw [ih, List.drop_eq_getElem_cons hi]
    simp [ByteArray.get!, h]
  | case2 i read h =>
    rw [List.drop_eq_nil_of_le (by simpa using Nat.le_of_not_lt h), List.append_nil]

/-- The bytes of a text are those of its characters. -/
theorem encode_ofList (cs : List Char) :
    encode (String.ofList cs) = cs.flatMap String.utf8EncodeChar := by
  have hbytes : (String.ofList cs).toUTF8 = (cs.flatMap String.utf8EncodeChar).toByteArray := by
    rw [String.toUTF8_eq_toByteArray, String.toByteArray_ofList, List.utf8Encode]
  rw [encode, hbytes, ByteArray.toList, toList_loop_eq, List.drop_zero, List.reverse_nil,
    List.nil_append, List.toList_data_toByteArray]

/-! ### Bytes of a character -/

private theorem toNat_byte {n : Nat} (h : n < 256) : (UInt8.ofNat n).toNat = n :=
  UInt8.toNat_ofNat_of_lt' h

private theorem byte_lt_iff {m n : Nat} (hm : m < 256) (hn : n < 256) :
    UInt8.ofNat m < UInt8.ofNat n ↔ m < n := by
  rw [UInt8.lt_iff_toNat_lt, toNat_byte hm, toNat_byte hn]

theorem leadByte?_ofNat {n : Nat} (h : n < 256) :
    leadByte? (UInt8.ofNat n) =
      if 0xC2 ≤ n ∧ n ≤ 0xDF then some (2, 0x80, 0xBF)
      else if n = 0xE0 then some (3, 0xA0, 0xBF)
      else if n = 0xED then some (3, 0x80, 0x9F)
      else if 0xE1 ≤ n ∧ n ≤ 0xEF then some (3, 0x80, 0xBF)
      else if n = 0xF0 then some (4, 0x90, 0xBF)
      else if n = 0xF4 then some (4, 0x80, 0x8F)
      else if 0xF1 ≤ n ∧ n ≤ 0xF3 then some (4, 0x80, 0xBF)
      else none := by
  simp only [leadByte?, UInt8.le_iff_toNat_le, ← UInt8.toNat_inj, toNat_byte h]
  rfl

private theorem isContinuation_ofNat {n : Nat} (hlow : 0x80 ≤ n) (hhigh : n ≤ 0xBF) :
    isContinuation (UInt8.ofNat n) = true := by
  have hn : n < 256 := by omega
  simp only [isContinuation, UInt8.le_iff_toNat_le, toNat_byte hn, Bool.and_eq_true,
    decide_eq_true_eq]
  exact ⟨hlow, hhigh⟩

/-- The bits of bytes behind those of a first one. -/
private def joinBits (start : Nat) (further : List Nat) : Nat :=
  further.foldl (fun n b ↦ n * 64 + b % 64) start

private theorem assemble_ofNat {length a : Nat} {further : List Nat} (ha : a < 256)
    (hfurther : ∀ b ∈ further, b < 256) :
    assemble length (UInt8.ofNat a) (further.map UInt8.ofNat) =
      Char.ofNat (joinBits (a % pow2 (7 - length)) further) := by
  rw [assemble, toNat_byte ha, joinBits, List.foldl_map]
  congr 1
  exact List.foldl_ext _ _ _ fun n b hb ↦ by rw [toNat_byte (hfurther b hb)]

/-- Bytes that keep within the range that the first one sets are a character. -/
private theorem decodeFirst_ofNat {a b : Nat} (more : List Nat) (low high : Nat)
    (ha : 0x80 ≤ a) (ha' : a < 256) (hlead : leadByte? (UInt8.ofNat a) =
      some (more.length + 2, UInt8.ofNat low, UInt8.ofNat high))
    (hb : low ≤ b ∧ b ≤ high) (hhigh : high < 256) (hmore : ∀ n ∈ more, 0x80 ≤ n ∧ n ≤ 0xBF)
    (rest : List UInt8) :
    decodeFirst (UInt8.ofNat a) ((b :: more).map UInt8.ofNat ++ rest) =
      .char (Char.ofNat (joinBits (a % pow2 (5 - more.length)) (b :: more)))
        (more.length + 2) := by
  have hfirst : ¬UInt8.ofNat a < 0x80 :=
    (byte_lt_iff ha' (n := 0x80) (by decide)).not.mpr (by omega)
  have hsecond : ¬(UInt8.ofNat b < UInt8.ofNat low ∨ UInt8.ofNat high < UInt8.ofNat b) := by
    rw [byte_lt_iff (by omega) (by omega), byte_lt_iff (by omega) (by omega)]
    omega
  have htaken : ((more.map UInt8.ofNat ++ rest).take more.length).takeWhile isContinuation =
      more.map UInt8.ofNat := by
    rw [List.take_left' (List.length_map _), List.takeWhile_eq_self_iff, List.forall_mem_map]
    exact fun n hn ↦ isContinuation_ofNat (hmore n hn).1 (hmore n hn).2
  have hbytes : ∀ n ∈ b :: more, n < 256 := by
    refine List.forall_mem_cons.mpr ⟨by omega, fun n hn ↦ ?_⟩
    have := hmore n hn
    omega
  rw [List.map_cons, List.cons_append, decodeFirst, if_neg hfirst, hlead]
  simp only [if_neg hsecond, Nat.add_sub_cancel, htaken, List.length_map, if_true]
  rw [← List.map_cons, assemble_ofNat ha' hbytes, Nat.add_comm, ← Nat.sub_sub]

private theorem ofNat_eq {c : Char} {n : Nat} (h : n = c.toNat) : Char.ofNat n = c := by
  rw [h, Char.ofNat_toNat]

/-- The second of three bytes is bounded where fewer bytes would do and where surrogates would
be. -/
private theorem exists_leadByte?_three {n : Nat} (hlow : 0x7FF < n) (hhigh : n ≤ 0xFFFF)
    (hvalid : n < 0xD800 ∨ 0xDFFF < n) :
    ∃ low high : Nat, leadByte? (UInt8.ofNat (n / 4096 % 16 + 224)) =
        some (3, UInt8.ofNat low, UInt8.ofNat high) ∧
      (low ≤ n / 64 % 64 + 128 ∧ n / 64 % 64 + 128 ≤ high) ∧ high < 256 := by
  rw [leadByte?_ofNat (by omega), if_neg (by omega)]
  by_cases hfew : n / 4096 = 0
  · exact ⟨0xA0, 0xBF, if_pos (by omega), by omega, by decide⟩
  rw [if_neg (by omega)]
  by_cases hgap : n / 4096 = 13
  · exact ⟨0x80, 0x9F, if_pos (by omega), by omega, by decide⟩
  exact ⟨0x80, 0xBF, by rw [if_neg (by omega), if_pos (by omega)]; rfl, by omega, by decide⟩

/-- The second of four bytes is bounded where fewer bytes would do and behind the last
character. -/
private theorem exists_leadByte?_four {n : Nat} (hlow : 0xFFFF < n) (hhigh : n < 0x110000) :
    ∃ low high : Nat, leadByte? (UInt8.ofNat (n / 262144 % 8 + 240)) =
        some (4, UInt8.ofNat low, UInt8.ofNat high) ∧
      (low ≤ n / 4096 % 64 + 128 ∧ n / 4096 % 64 + 128 ≤ high) ∧ high < 256 := by
  rw [leadByte?_ofNat (by omega), if_neg (by omega), if_neg (by omega), if_neg (by omega),
    if_neg (by omega)]
  by_cases hfew : n / 262144 = 0
  · exact ⟨0x90, 0xBF, if_pos (by omega), by omega, by decide⟩
  rw [if_neg (by omega)]
  by_cases hmany : n / 262144 = 4
  · exact ⟨0x80, 0x8F, if_pos (by omega), by omega, by decide⟩
  exact ⟨0x80, 0xBF, by rw [if_neg (by omega), if_pos (by omega)]; rfl, by omega, by decide⟩

/-- The bytes of a character are read as the character, whatever follows them. -/
theorem decodeFirst_utf8EncodeChar (c : Char) (rest : List UInt8) :
    ∃ first further, String.utf8EncodeChar c = first :: further ∧
      decodeFirst first (further ++ rest) = .char c (further.length + 1) := by
  have hvalid : c.toNat < 0xD800 ∨ 0xDFFF < c.toNat ∧ c.toNat < 0x110000 := c.valid
  rw [String.utf8EncodeChar, show c.val.toNat = c.toNat from rfl]
  generalize hn : c.toNat = n at hvalid ⊢
  by_cases h1 : n ≤ 0x7F
  · have hfirst : UInt8.ofNat n < 0x80 :=
      (byte_lt_iff (by omega) (n := 0x80) (by decide)).mpr (by omega)
    refine ⟨_, [], if_pos h1, ?_⟩
    rw [decodeFirst, if_pos hfirst, toNat_byte (by omega), ofNat_eq hn.symm]
    rfl
  by_cases h2 : n ≤ 0x7FF
  · have hlead : leadByte? (UInt8.ofNat (n / 64 % 32 + 192)) = some (2, 0x80, 0xBF) := by
      rw [leadByte?_ofNat (by omega), if_pos (by omega)]
    refine ⟨_, [_], by rw [if_neg h1, if_pos h2], ?_⟩
    refine (decodeFirst_ofNat [] 0x80 0xBF (by omega) (by omega) hlead (by omega) (by decide)
      (List.forall_mem_nil _) rest).trans ?_
    rw [ofNat_eq]
    · rfl
    · change (n / 64 % 32 + 192) % 32 * 64 + (n % 64 + 128) % 64 = c.toNat
      omega
  by_cases h3 : n ≤ 0xFFFF
  · obtain ⟨low, high, hlead, hlow, hhigh⟩ :=
      exists_leadByte?_three (n := n) (by omega) h3 (by omega)
    refine ⟨_, [_, _], by rw [if_neg h1, if_neg h2, if_pos h3], ?_⟩
    refine (decodeFirst_ofNat [n % 64 + 128] low high (by omega) (by omega) hlead hlow hhigh
      (List.forall_mem_singleton.mpr (by omega)) rest).trans ?_
    rw [ofNat_eq]
    · rfl
    · change ((n / 4096 % 16 + 224) % 16 * 64 + (n / 64 % 64 + 128) % 64) * 64 +
        (n % 64 + 128) % 64 = c.toNat
      omega
  · obtain ⟨low, high, hlead, hlow, hhigh⟩ := exists_leadByte?_four (n := n) (by omega) (by omega)
    refine ⟨_, [_, _, _], by rw [if_neg h1, if_neg h2, if_neg h3], ?_⟩
    refine (decodeFirst_ofNat [n / 64 % 64 + 128, n % 64 + 128] low high (by omega) (by omega) hlead
      hlow hhigh
      (List.forall_mem_cons.mpr ⟨by omega, List.forall_mem_singleton.mpr (by omega)⟩) rest).trans ?_
    rw [ofNat_eq]
    · rfl
    · change (((n / 262144 % 8 + 240) % 8 * 64 + (n / 4096 % 64 + 128) % 64) * 64 +
        (n / 64 % 64 + 128) % 64) * 64 + (n % 64 + 128) % 64 = c.toNat
      omega

/-! ### Bytes as a text -/

/-- A text is read back from its bytes. -/
theorem decodeFrom_flatMap (cs : List Char) {fuel : Nat}
    (hfuel : (cs.flatMap String.utf8EncodeChar).length ≤ fuel) :
    decodeFrom fuel (cs.flatMap String.utf8EncodeChar) = cs := by
  induction cs generalizing fuel with
  | nil => cases fuel <;> rfl
  | cons c cs ih =>
    obtain ⟨first, further, hc, hfirst⟩ :=
      decodeFirst_utf8EncodeChar c (cs.flatMap String.utf8EncodeChar)
    rw [List.flatMap_cons, hc, List.cons_append] at hfuel ⊢
    cases fuel with
    | zero => exact absurd hfuel (Nat.not_succ_le_zero _)
    | succ fuel =>
      rw [List.length_cons, List.length_append] at hfuel
      rw [decodeFrom, hfirst]
      simp only [Nat.add_sub_cancel, List.drop_left]
      rw [ih (by omega)]

theorem validateFrom_flatMap (cs : List Char) (fuel index : Nat) :
    validateFrom fuel index (cs.flatMap String.utf8EncodeChar) = none := by
  induction cs generalizing fuel index with
  | nil => cases fuel <;> rfl
  | cons c cs ih =>
    obtain ⟨first, further, hc, hfirst⟩ :=
      decodeFirst_utf8EncodeChar c (cs.flatMap String.utf8EncodeChar)
    cases fuel with
    | zero => rfl
    | succ fuel =>
      rw [List.flatMap_cons, hc, List.cons_append, validateFrom, hfirst]
      simp only [Nat.add_sub_cancel, List.drop_left]
      exact ih _ _

/-- The bytes of a text are a text again, the same one. -/
theorem decode?_encode (s : String) : decode? (encode s) = some s := by
  have hbytes : encode s = s.toList.flatMap String.utf8EncodeChar := by
    rw [← encode_ofList, String.ofList_toList]
  rw [decode?, invalidIndex?, decodeLossy, hbytes, validateFrom_flatMap,
    decodeFrom_flatMap _ (Nat.le_refl _), String.ofList_toList]
  rfl

theorem encode_injective : Function.Injective encode := by
  intro s t heq
  have hread := decode?_encode s
  rw [heq, decode?_encode] at hread
  exact (Option.some.inj hread).symm

/-! ### Zero bytes -/

/-- How many bytes were read. -/
def Decoded.length : Decoded → Nat
  | char _ n => n
  | invalid n => n

/-- A first byte of several asks for a second one that continues it. -/
theorem leadByte?_bounds {b low high : UInt8} {length : Nat}
    (h : leadByte? b = some (length, low, high)) : 2 ≤ length ∧ 0x80 ≤ low := by
  rw [leadByte?] at h
  split_ifs at h <;> cases h <;> decide

/-- A zero byte stands behind the bytes that continue a character. -/
theorem zero_mem_drop_takeWhile {bs : List UInt8} (h : 0 ∈ bs) (n : Nat) :
    0 ∈ bs.drop ((bs.take n).takeWhile isContinuation).length := by
  have hcontinue : ∀ x ∈ (bs.take n).takeWhile isContinuation, isContinuation x = true :=
    fun x hx ↦ List.mem_takeWhile_imp hx
  obtain ⟨rest, hrest⟩ : (bs.take n).takeWhile isContinuation <+: bs :=
    (List.takeWhile_prefix _).trans (List.take_prefix _ _)
  generalize (bs.take n).takeWhile isContinuation = further at hcontinue hrest ⊢
  subst hrest
  rw [List.drop_left]
  exact (List.mem_append.mp h).resolve_left fun hmem ↦ by cases hcontinue 0 hmem

/-- None of the bytes that are read together is zero but the first one. -/
theorem zero_mem_drop_decodeFirst (b : UInt8) {bs : List UInt8} (h : 0 ∈ bs) :
    0 ∈ bs.drop ((decodeFirst b bs).length - 1) := by
  rw [decodeFirst]
  by_cases hsingle : b < 0x80
  · rw [if_pos hsingle]
    exact h
  rw [if_neg hsingle]
  cases hlead : leadByte? b with
  | none => exact h
  | some lead =>
    obtain ⟨length, low, high⟩ := lead
    obtain ⟨hlength, hlow⟩ := leadByte?_bounds hlead
    cases bs with
    | nil => cases h
    | cons second more =>
      dsimp only
      by_cases hout : second < low ∨ high < second
      · rw [if_pos hout]
        exact h
      rw [if_neg hout]
      have hmore : 0 ∈ more := by
        refine (List.mem_cons.mp h).resolve_left ?_
        rintro rfl
        exact hout (Or.inl (UInt8.lt_of_lt_of_le (by decide) hlow))
      have hzero := zero_mem_drop_takeWhile hmore (length - 2)
      generalize (more.take (length - 2)).takeWhile isContinuation = further at hzero ⊢
      by_cases hfull : further.length = length - 2
      · rw [if_pos hfull]
        change 0 ∈ (second :: more).drop (length - 1)
        rw [show length - 1 = further.length + 1 by omega]
        exact hzero
      · rw [if_neg hfull]
        change 0 ∈ (second :: more).drop (2 + further.length - 1)
        rw [show 2 + further.length - 1 = further.length + 1 by omega]
        exact hzero

/-- A zero byte is read as the zero character. -/
theorem zero_mem_decodeFrom {fuel : Nat} {bs : List UInt8} (hfuel : bs.length ≤ fuel)
    (h : 0 ∈ bs) : '\x00' ∈ decodeFrom fuel bs := by
  induction fuel generalizing bs with
  | zero =>
    rw [List.eq_nil_of_length_eq_zero (Nat.le_zero.mp hfuel)] at h
    cases h
  | succ fuel ih =>
    cases bs with
    | nil => cases h
    | cons b bs =>
      rw [List.length_cons] at hfuel
      rw [decodeFrom]
      obtain rfl | hrest := List.mem_cons.mp h
      · exact List.mem_cons_self
      · have hshorter : (bs.drop ((decodeFirst b bs).length - 1)).length ≤ fuel := by
          rw [List.length_drop]
          omega
        have hlater := ih hshorter (zero_mem_drop_decodeFirst b hrest)
        cases hfirst : decodeFirst b bs with
        | char c n =>
          rw [hfirst] at hlater
          exact List.mem_cons_of_mem c hlater
        | invalid n =>
          rw [hfirst] at hlater
          exact List.mem_cons_of_mem '\uFFFD' hlater

/-- A text has a zero character if its bytes have a zero byte. -/
theorem zero_mem_of_decode? {bs : List UInt8} {s : String} (h : decode? bs = some s)
    (hzero : 0 ∈ bs) : '\x00' ∈ s.toList := by
  rw [decode?] at h
  split at h
  · rw [← Option.some.inj h, decodeLossy, String.toList_ofList]
    exact zero_mem_decodeFrom (Nat.le_refl _) hzero
  · cases h

theorem zero_mem_of_encode {s : String} (h : 0 ∈ encode s) : '\x00' ∈ s.toList :=
  zero_mem_of_decode? (decode?_encode s) h

end PipingAssembly.Text
