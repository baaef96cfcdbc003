/-
A text that was encoded is decoded to itself, and begins and ends with a
character of ASCII where its bytes do.

What a byte means to the decoder is settled by looking at all 256 of them, so
here a byte is written as what it carries and a mark: the leads of two, three
and four bytes and the bytes that continue. Between two bytes of a character
the decoder has the bits so far and the range in which the next byte has to
lie. The ranges narrow only where another character would be written shorter,
or where there is no character at all, so no character is stopped by them.
-/
import Mathlib.Data.List.Basic
import Toolrun.Text.Utf8

namespace Toolrun.Utf8

-- ================================================================== bytes

theorem lead_one : ∀ n < 0x80,
    lead (.ofNat n) = .inl (.char (Char.ofNat n)) := by
  decide

theorem lead_two : ∀ n < 0x20, 2 ≤ n →
    lead (.ofNat (n + 0xC0)) = .inr ⟨1, n, 0x80, 0xBF⟩ := by
  decide

theorem lead_three : ∀ n < 0x10,
    lead (.ofNat (n + 0xE0))
      = .inr ⟨2, n, if n = 0 then 0xA0 else 0x80,
          if n = 13 then 0x9F else 0xBF⟩ := by
  decide

theorem lead_four : ∀ n < 5,
    lead (.ofNat (n + 0xF0))
      = .inr ⟨3, n, if n = 0 then 0x90 else 0x80,
          if n = 4 then 0x8F else 0xBF⟩ := by
  decide

theorem toNat_continuing : ∀ n < 0x40,
    (UInt8.ofNat (n + 0x80)).toNat = n + 0x80
      ∧ (UInt8.ofNat (n + 0x80) - 0x80).toNat = n := by
  decide

namespace Decoder

variable {found : List Piece} {bits n : Nat} {low high : UInt8}

/-- A byte that continues a character brings it six bits further. -/
theorem push_continuing (hn : n < 0x40) (hlow : low.toNat ≤ n + 0x80)
    (hhigh : n + 0x80 ≤ high.toNat) (missing : Nat) :
    push ⟨some ⟨missing + 2, bits, low, high⟩, found⟩ (.ofNat (n + 0x80))
      = ⟨some ⟨missing + 1, bits * 64 + n, 0x80, 0xBF⟩, found⟩ := by
  obtain ⟨hbyte, hcarried⟩ := toNat_continuing n hn
  unfold push
  simp only [UInt8.le_iff_toNat_le, hbyte, hcarried]
  rw [if_pos ⟨hlow, hhigh⟩, if_neg (by omega)]
  rfl

/-- The last byte of a character completes it. -/
theorem push_last (hn : n < 0x40) (hlow : low.toNat ≤ n + 0x80)
    (hhigh : n + 0x80 ≤ high.toNat) :
    push ⟨some ⟨1, bits, low, high⟩, found⟩ (.ofNat (n + 0x80))
      = ⟨none, .char (Char.ofNat (bits * 64 + n)) :: found⟩ := by
  obtain ⟨hbyte, hcarried⟩ := toNat_continuing n hn
  unfold push
  simp only [UInt8.le_iff_toNat_le, hbyte, hcarried]
  rw [if_pos ⟨hlow, hhigh⟩, if_pos (Nat.le_refl 1)]

theorem push_lead {b : UInt8} {begun : Begun} (h : lead b = .inr begun) :
    push ⟨none, found⟩ b = ⟨some begun, found⟩ := by
  unfold push first
  simp only [h]

end Decoder

-- ============================================================= characters

/-- Which codes there are. -/
theorem code_range (c : Char) :
    c.val.toNat < 0xD800 ∨ (0xE000 ≤ c.val.toNat ∧ c.val.toNat < 0x110000) := by
  rcases c.valid with hlow | ⟨hhigh, hlast⟩
  · exact .inl hlow
  · exact .inr ⟨hhigh, hlast⟩

/-- The bytes of a character are taken for it. -/
theorem foldl_push_char (c : Char) (found : List Piece) :
    (String.utf8EncodeChar c).foldl Decoder.push ⟨none, found⟩
      = ⟨none, .char c :: found⟩ := by
  have hrange := code_range c
  have hcode : Char.ofNat c.val.toNat = c := Char.ofNat_toNat c
  unfold String.utf8EncodeChar
  simp only []
  generalize c.val.toNat = v at hrange hcode ⊢
  split
  next hone =>
    have hlead := lead_one v (by omega)
    rw [hcode] at hlead
    simp only [List.foldl_cons, List.foldl_nil, Decoder.push, Decoder.first,
      hlead]
  split
  next hone htwo =>
    have hlead := lead_two (v / 64 % 32) (by omega) (by omega)
    have hbits : v / 64 % 32 * 64 + v % 64 = v := by omega
    rw [List.foldl_cons, List.foldl_cons, List.foldl_nil,
      Decoder.push_lead hlead,
      Decoder.push_last (by omega) (by simp) (by simp; omega), hbits, hcode]
  split
  next hone htwo hthree =>
    have hlead := lead_three (v / 4096 % 16) (by omega)
    have hbits : (v / 4096 % 16 * 64 + v / 64 % 64) * 64 + v % 64 = v := by
      omega
    rw [List.foldl_cons, List.foldl_cons, List.foldl_cons, List.foldl_nil,
      Decoder.push_lead hlead, Decoder.push_continuing (by omega) _ _ 0,
      Decoder.push_last (by omega) (by simp) (by simp; omega), hbits, hcode]
    · -- Two bytes would have done for anything below 0x800.
      split
      · show 0xA0 ≤ _
        omega
      · show 0x80 ≤ _
        omega
    · -- Anything from 0xD800 to 0xDFFF is no character.
      split
      · show _ ≤ 0x9F
        omega
      · show _ ≤ 0xBF
        omega
  next hone htwo hthree =>
    have hlead := lead_four (v / 262144 % 8) (by omega)
    have hbits : ((v / 262144 % 8 * 64 + v / 4096 % 64) * 64 + v / 64 % 64) * 64
        + v % 64 = v := by
      omega
    rw [List.foldl_cons, List.foldl_cons, List.foldl_cons, List.foldl_cons,
      List.foldl_nil, Decoder.push_lead hlead,
      Decoder.push_continuing (by omega) _ _ 1,
      Decoder.push_continuing (by omega) (by simp) (by simp; omega) 0,
      Decoder.push_last (by omega) (by simp) (by simp; omega), hbits, hcode]
    · -- Three bytes would have done for anything below 0x10000.
      split
      · show 0x90 ≤ _
        omega
      · show 0x80 ≤ _
        omega
    · -- There is no character from 0x110000 on.
      split
      · show _ ≤ 0x8F
        omega
      · show _ ≤ 0xBF
        omega

-- ================================================================== texts

theorem encodeChars_cons (c : Char) (cs : List Char) :
    encodeChars (c :: cs) = String.utf8EncodeChar c ++ encodeChars cs :=
  List.flatMap_cons

theorem encodeChars_append (front behind : List Char) :
    encodeChars (front ++ behind) = encodeChars front ++ encodeChars behind :=
  List.flatMap_append

@[simp] theorem encodeChars_singleton (c : Char) :
    encodeChars [c] = String.utf8EncodeChar c :=
  List.flatMap_singleton ..

theorem foldl_push_chars (cs : List Char) (found : List Piece) :
    (encodeChars cs).foldl Decoder.push ⟨none, found⟩
      = ⟨none, (cs.map Piece.char).reverse ++ found⟩ := by
  induction cs generalizing found with
  | nil => rfl
  | cons c cs ih =>
      rw [encodeChars_cons, List.foldl_append, foldl_push_char, ih,
        List.map_cons, List.reverse_cons, List.append_assoc]
      rfl

/-- A character that was found is shown as itself. -/
@[simp] theorem shown_comp_char : Piece.shown ∘ Piece.char = id := rfl

/-- The pieces of a text that was encoded are its characters. -/
theorem pieces_encode (s : String) :
    pieces (encode s) = s.toList.map .char := by
  unfold pieces encode
  rw [foldl_push_chars]
  simp [Decoder.finish]

/-- A text that was encoded is decoded to itself. -/
theorem decode?_encode (s : String) : decode? (encode s) = some s := by
  have hchars (cs : List Char) :
      (cs.map Piece.char).mapM Piece.char? = some cs := by
    induction cs with
    | nil => rfl
    | cons c cs ih =>
        rw [List.map_cons, List.mapM_cons, ih]
        rfl
  unfold decode?
  rw [pieces_encode, hchars, Option.map_some, String.ofList_toList]

/-- The same of a lossy reading: in a text that was encoded nothing is
broken. -/
theorem decodeLossy_encode (s : String) : decodeLossy (encode s) = s := by
  unfold decodeLossy
  rw [pieces_encode, List.map_map, shown_comp_char, List.map_id,
    String.ofList_toList]

theorem encode_injective {s t : String} (h : encode s = encode t) : s = t := by
  have hdecoded := decode?_encode s
  rw [h, decode?_encode] at hdecoded
  exact (Option.some.inj hdecoded).symm

theorem encode_eq_nil_iff {s : String} : encode s = [] ↔ s = "" := by
  constructor
  · intro h
    exact encode_injective h
  · rintro rfl
    rfl

-- ======================================================== texts in parts

/-- Some bytes that are a text. -/
def IsText (bytes : Bytes) : Prop := ∃ s, encode s = bytes

theorem isText_encode (s : String) : IsText (encode s) := ⟨s, rfl⟩

theorem isText_encodeChars (cs : List Char) : IsText (encodeChars cs) :=
  ⟨.ofList cs, by rw [encode, String.toList_ofList]⟩

theorem isText_append {a b : Bytes} (ha : IsText a) (hb : IsText b) :
    IsText (a ++ b) := by
  obtain ⟨s, rfl⟩ := ha
  obtain ⟨t, rfl⟩ := hb
  refine ⟨s ++ t, ?_⟩
  simp [encode, encodeChars]

theorem isText_flatMap {α : Type} {xs : List α} {f : α → Bytes}
    (h : ∀ x ∈ xs, IsText (f x)) : IsText (xs.flatMap f) := by
  induction xs with
  | nil => exact ⟨"", rfl⟩
  | cons x xs ih =>
      rw [List.flatMap_cons]
      exact isText_append (h x List.mem_cons_self)
        (ih fun y hy => h y (List.mem_cons_of_mem x hy))

theorem utf8EncodeChar_ascii : ∀ n < 0x80,
    String.utf8EncodeChar (Char.ofNat n) = [.ofNat n] := by
  decide

/-- ASCII is text. -/
theorem isText_ascii {bytes : Bytes} (h : ∀ b ∈ bytes, b < 0x80) :
    IsText bytes := by
  refine ⟨.ofList (bytes.map fun b => .ofNat b.toNat), ?_⟩
  have hbytes : bytes.map (fun b => String.utf8EncodeChar (.ofNat b.toNat))
      = bytes.map fun b => [b] := by
    refine List.map_congr_left fun b hb => ?_
    have hlt : b.toNat < 0x80 := UInt8.lt_iff_toNat_lt.1 (h b hb)
    rw [utf8EncodeChar_ascii b.toNat hlt, UInt8.ofNat_toNat]
  unfold encode encodeChars
  rw [String.toList_ofList, List.flatMap_map, List.flatMap, hbytes]
  simp [← List.flatMap_def]

/-- A character is one byte of ASCII or several others. -/
theorem utf8EncodeChar_cases (c : Char) :
    (∃ b < 0x80, String.utf8EncodeChar c = [b])
      ∨ ∀ b ∈ String.utf8EncodeChar c, 0x80 ≤ b := by
  have hrange := code_range c
  unfold String.utf8EncodeChar
  simp only []
  generalize c.val.toNat = v at hrange ⊢
  have hle {n : Nat} (hn : 0x80 ≤ n) (hlt : n < 256) :
      (0x80 : UInt8) ≤ .ofNat n := by
    rw [UInt8.le_iff_toNat_le, UInt8.toNat_ofNat_of_lt' hlt]
    exact hn
  split
  next hone =>
    refine .inl ⟨_, ?_, rfl⟩
    rw [UInt8.lt_iff_toNat_lt,
      UInt8.toNat_ofNat_of_lt' (Nat.lt_of_le_of_lt hone (by decide))]
    exact Nat.lt_succ_of_le hone
  split
  next =>
    right
    simp only [List.forall_mem_cons]
    exact ⟨hle (by omega) (by omega), hle (by omega) (by omega), by simp⟩
  split
  next =>
    right
    simp only [List.forall_mem_cons]
    exact ⟨hle (by omega) (by omega), hle (by omega) (by omega),
      hle (by omega) (by omega), by simp⟩
  next =>
    right
    simp only [List.forall_mem_cons]
    exact ⟨hle (by omega) (by omega), hle (by omega) (by omega),
      hle (by omega) (by omega), hle (by omega) (by omega), by simp⟩

-- ============================================================ ends of texts

variable {a c : Char} {b : UInt8} {cs : List Char}

theorem utf8EncodeChar_injective
    (h : String.utf8EncodeChar c = String.utf8EncodeChar a) : c = a := by
  have hc := foldl_push_char c []
  rw [h, foldl_push_char a []] at hc
  injection hc with _ hfound
  injection hfound with hpiece
  injection hpiece with hchar
  exact hchar.symm

/-- A byte of ASCII is written for no other character than its own. -/
theorem eq_of_mem_utf8EncodeChar (ha : String.utf8EncodeChar a = [b])
    (hb : b < 0x80) (hmem : b ∈ String.utf8EncodeChar c) : c = a := by
  rcases utf8EncodeChar_cases c with ⟨d, -, hc⟩ | hlarge
  · rw [hc, List.mem_singleton] at hmem
    apply utf8EncodeChar_injective
    rw [hc, ha, hmem]
  · exact absurd (hlarge b hmem) (UInt8.not_le.2 hb)

/-- The bytes of a text begin with the byte of a character of ASCII if the
text begins with the character. -/
theorem head?_encodeChars (ha : String.utf8EncodeChar a = [b])
    (hb : b < 0x80) :
    (encodeChars cs).head? = some b ↔ cs.head? = some a := by
  cases cs with
  | nil => simp [encodeChars]
  | cons c cs =>
      rw [encodeChars_cons,
        List.head?_append_of_ne_nil _ String.utf8EncodeChar_ne_nil,
        List.head?_cons, Option.some.injEq]
      constructor
      · intro h
        exact eq_of_mem_utf8EncodeChar ha hb (List.mem_of_mem_head? h)
      · rintro rfl
        rw [ha]
        rfl

/-- They end with it if the text ends with the character. -/
theorem getLast?_encodeChars (ha : String.utf8EncodeChar a = [b])
    (hb : b < 0x80) :
    (encodeChars cs).getLast? = some b ↔ cs.getLast? = some a := by
  rcases List.eq_nil_or_concat' cs with rfl | ⟨front, c, rfl⟩
  · simp [encodeChars]
  · rw [encodeChars_append, encodeChars_singleton,
      List.getLast?_append_of_ne_nil _ String.utf8EncodeChar_ne_nil,
      List.getLast?_concat, Option.some.injEq]
    constructor
    · intro h
      exact eq_of_mem_utf8EncodeChar ha hb (List.mem_of_getLast? h)
    · rintro rfl
      rw [ha]
      rfl

/-- A text that was encoded ends in the byte of a line feed if it ends in a
line feed. -/
theorem getLast?_encode (s : String) :
    (encode s).getLast? = some 0x0A ↔ s.toList.getLast? = some '\n' :=
  getLast?_encodeChars rfl (by decide)

end Toolrun.Utf8
