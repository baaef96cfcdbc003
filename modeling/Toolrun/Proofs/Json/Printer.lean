/-
What is written as JSON is read back as what it was.

A string is written byte by byte, and each byte is read back by itself
(`stringFrom_escapeByte`); a list or an object is written as its parts with
commas between them, and the loop over them takes one part in each round
(`items_commaSeparated`). So a value is read back by induction on how it is
built, whatever follows it (`value_render`). Numbers are left out: where one
ends depends on what follows it, and no report has any.
-/
import Mathlib.Data.List.TakeWhile
import Toolrun.Json.Printer
import Toolrun.Json.Reader
import Toolrun.Proofs.Utf8

namespace Toolrun.Json

-- ================================================================ strings

namespace Reader

variable {fuel : Nat} {found rest : Bytes}

/-- A letter stands for the byte that it is the letter of, and is not the one
that begins a number. -/
theorem letterEscape?_of_escapeLetter? {b letter : UInt8}
    (h : escapeLetter? b = some letter) :
    0x20 ≤ letter ∧ letter ≠ 0x75 ∧ letterEscape? letter = some b := by
  unfold escapeLetter? at h
  repeat' split at h
  all_goals cases h <;> subst_vars <;> decide

/-- A byte without a letter is no mark of a string. -/
theorem ne_of_escapeLetter? {b : UInt8} (h : escapeLetter? b = none) :
    b ≠ 0x22 ∧ b ≠ 0x5C := by
  constructor
  · rintro rfl
    cases h
  · rintro rfl
    cases h

theorem hexValue?_hexDigit : ∀ n < 16, hexValue? (hexDigit n) = some n := by
  decide

/-- A control character written by its number is read as what it is. -/
theorem escape_control {b : UInt8} (h : b < 0x20) :
    escape (0x75 :: 0x30 :: 0x30 :: hexDigit (b.toNat / 16)
        :: hexDigit (b.toNat % 16) :: rest)
      = .ok ([b], rest) := by
  have hb : b.toNat < 0x20 := UInt8.lt_iff_toNat_lt.1 h
  have hzero : hexValue? 0x30 = some 0 := rfl
  have hhigh := hexValue?_hexDigit (b.toNat / 16) (by omega)
  have hlow := hexValue?_hexDigit (b.toNat % 16) (by omega)
  have hcode : ((0 * 16 + 0) * 16 + b.toNat / 16) * 16 + b.toNat % 16
      = b.toNat := by
    omega
  have hquad : hexQuad (0x30 :: 0x30 :: hexDigit (b.toNat / 16)
      :: hexDigit (b.toNat % 16) :: rest) = .ok (b.toNat, rest) := by
    simp only [hexQuad, hzero, hhigh, hlow, hcode]
  have hchar : unicodeEscape (0x30 :: 0x30 :: hexDigit (b.toNat / 16)
      :: hexDigit (b.toNat % 16) :: rest)
        = .ok (Char.ofNat b.toNat, rest) := by
    unfold unicodeEscape
    rw [hquad]
    simp only [bind, Except.bind]
    rw [if_neg (by simp; omega), if_neg (by simp; omega)]
  have hbyte := Utf8.utf8EncodeChar_ascii b.toNat (by omega)
  rw [escape, if_pos rfl, hchar]
  simp only [bind, Except.bind, hbyte, UInt8.ofNat_toNat]

/-- A byte is read back from what it is written as. -/
theorem stringFrom_escapeByte (b : UInt8) :
    stringFrom (fuel + 1) found (escapeByte b ++ rest)
      = stringFrom fuel (b :: found) rest := by
  have hescaped {text : Bytes} (h : escape text = .ok ([b], rest)) :
      stringFrom (fuel + 1) found (0x5C :: text)
        = stringFrom fuel (b :: found) rest := by
    rw [stringFrom, if_neg (by decide), if_pos rfl, h]
    rfl
  unfold escapeByte
  split
  next letter hletter =>
    obtain ⟨-, hne, hplain⟩ := letterEscape?_of_escapeLetter? hletter
    have hread : escape (letter :: rest) = .ok ([b], rest) := by
      rw [escape, if_neg hne, hplain]
    exact hescaped hread
  next hletter =>
    obtain ⟨hquote, hbackslash⟩ := ne_of_escapeLetter? hletter
    split
    next hcontrol => exact hescaped (escape_control hcontrol)
    next hplain =>
      rw [List.singleton_append, stringFrom, if_neg hquote, if_neg hbackslash,
        if_neg hplain]

/-- The bytes of a string are read back up to the quote that ends it. -/
theorem stringFrom_escaped (text : Bytes) (hfuel : text.length < fuel) :
    stringFrom fuel found (text.flatMap escapeByte ++ 0x22 :: rest)
      = .ok (found.reverse ++ text, rest) := by
  induction text generalizing fuel found with
  | nil =>
      obtain ⟨fuel, rfl⟩ := Nat.exists_eq_add_one_of_ne_zero
        (Nat.ne_of_gt hfuel)
      rw [List.append_nil]
      rfl
  | cons b text ih =>
      obtain ⟨fuel, rfl⟩ := Nat.exists_eq_add_one_of_ne_zero
        (Nat.ne_of_gt (Nat.zero_lt_of_lt hfuel))
      rw [List.flatMap_cons, List.append_assoc, stringFrom_escapeByte,
        ih (Nat.lt_of_succ_lt_succ hfuel), List.reverse_cons,
        List.append_assoc]
      rfl

-- ================================================================== lists

/-- What is written begins with a mark: no white space, and no bracket that
closes. -/
def Begins (brackets : Brackets) (text : Bytes) : Prop :=
  ∃ b others, text = b :: others ∧ isSpace b = false ∧ b ≠ brackets.close

theorem skipSpace_cons {b : UInt8} (h : isSpace b = false) :
    skipSpace (b :: rest) = b :: rest := by
  unfold skipSpace
  rw [List.dropWhile_cons, h]
  rfl

/-- Brackets that close with a mark of their own. -/
structure Brackets.Marked (brackets : Brackets) : Prop where
  notSpace : isSpace brackets.close = false
  notComma : brackets.close ≠ 0x2C

theorem listBrackets_marked : listBrackets.Marked := ⟨rfl, by decide⟩

theorem objectBrackets_marked : objectBrackets.Marked := ⟨rfl, by decide⟩

section

variable {α : Type} {brackets : Brackets}
  {item : Bytes → Except Fault (α × Bytes)} {write : α → Bytes}

/-- Whatever is written of an item is read back, with what follows it. -/
structure ReadsBack (brackets : Brackets)
    (item : Bytes → Except Fault (α × Bytes)) (write : α → Bytes) (x : α) :
    Prop where
  begins : Begins brackets (write x)
  item_eq : ∀ rest, item (write x ++ rest) = .ok (x, rest)

/-- The closing bracket ends the reading. -/
theorem itemsFrom_close (h : brackets.Marked) (found : List α) :
    itemsFrom brackets item (fuel + 1) found (brackets.close :: rest)
      = .ok (found.reverse, rest) := by
  rw [itemsFrom, skipSpace_cons h.notSpace]
  simp only [↓reduceIte]

/-- The first item is read without a comma. -/
theorem itemsFrom_first {x : α} (h : ReadsBack brackets item write x) :
    itemsFrom brackets item (fuel + 1) [] (write x ++ rest)
      = itemsFrom brackets item fuel [x] rest := by
  obtain ⟨b, others, hwrite, hspace, hclose⟩ := h.begins
  have hitem := h.item_eq rest
  rw [hwrite, List.cons_append] at hitem ⊢
  rw [itemsFrom, skipSpace_cons hspace]
  simp only []
  rw [if_neg hclose, if_pos List.isEmpty_nil, hitem]
  rfl

/-- Any other is read from behind a comma. -/
theorem itemsFrom_next (hmarked : brackets.Marked) {x y : α}
    {found : List α} (h : ReadsBack brackets item write y) :
    itemsFrom brackets item (fuel + 1) (x :: found) (0x2C :: (write y ++ rest))
      = itemsFrom brackets item fuel (y :: x :: found) rest := by
  obtain ⟨b, others, hwrite, hspace, hclose⟩ := h.begins
  have hitem := h.item_eq rest
  rw [hwrite, List.cons_append] at hitem ⊢
  rw [itemsFrom, skipSpace_cons rfl]
  simp only []
  rw [if_neg hmarked.notComma.symm, if_neg (by simp), if_pos trivial,
    skipSpace_cons hspace]
  simp only []
  rw [if_neg hclose, hitem]
  rfl

/-- The items behind the first, each with the comma before it. -/
theorem itemsFrom_behind (hmarked : brackets.Marked) {xs : List α}
    (hxs : ∀ x ∈ xs, ReadsBack brackets item write x)
    (hfuel : xs.length < fuel) (x : α) (found : List α) :
    itemsFrom brackets item fuel (x :: found)
        (xs.flatMap (fun y => 0x2C :: write y) ++ brackets.close :: rest)
      = .ok ((x :: found).reverse ++ xs, rest) := by
  induction xs generalizing fuel x found with
  | nil =>
      obtain ⟨fuel, rfl⟩ := Nat.exists_eq_add_one_of_ne_zero
        (Nat.ne_of_gt hfuel)
      rw [List.append_nil]
      exact itemsFrom_close hmarked _
  | cons y ys ih =>
      obtain ⟨fuel, rfl⟩ := Nat.exists_eq_add_one_of_ne_zero
        (Nat.ne_of_gt (Nat.zero_lt_of_lt hfuel))
      rw [List.flatMap_cons, List.append_assoc, List.cons_append,
        itemsFrom_next hmarked (hxs y List.mem_cons_self),
        ih (fun x hx => hxs x (List.mem_cons_of_mem y hx))
          (Nat.lt_of_succ_lt_succ hfuel),
        List.reverse_cons, List.append_assoc]
      rfl

end

end Reader

-- ================================================================ writing

theorem commaSeparated_cons (part : Bytes) (parts : List Bytes) :
    commaSeparated (part :: parts)
      = part ++ parts.flatMap fun p => 0x2C :: p := by
  induction parts generalizing part with
  | nil => exact (List.append_nil part).symm
  | cons next others ih =>
      rw [commaSeparated, ih, List.flatMap_cons, List.cons_append]
      exact fun h => by cases h

theorem renderItems_eq (items : List Json) :
    renderItems items = items.map render := by
  induction items with
  | nil => rfl
  | cons item items ih => rw [renderItems, ih, List.map_cons]

/-- A member of an object as it is written. -/
def renderMember (m : Bytes × Json) : Bytes :=
  quote m.1 ++ 0x3A :: render m.2

theorem renderMembers_eq (members : List (Bytes × Json)) :
    renderMembers members = members.map renderMember := by
  induction members with
  | nil => rfl
  | cons m members ih =>
      obtain ⟨name, value⟩ := m
      rw [renderMembers, ih, List.map_cons]
      rfl

theorem length_le_commaSeparated {part : Bytes} {parts : List Bytes}
    (h : part ∈ parts) : part.length ≤ (commaSeparated parts).length := by
  obtain ⟨first, others, rfl⟩ := List.exists_cons_of_ne_nil
    (List.ne_nil_of_mem h)
  rw [commaSeparated_cons, List.length_append]
  rcases List.mem_cons.1 h with rfl | hmem
  · exact Nat.le_add_right _ _
  · have hsub : part.Sublist (others.flatMap fun p => 0x2C :: p) :=
      (List.sublist_cons_self 0x2C part).trans
        (List.sublist_flatten_of_mem (List.mem_map_of_mem hmem))
    exact Nat.le_add_left_of_le hsub.length_le

/-- There is a comma for every part but one. -/
theorem length_parts_le (parts : List Bytes) :
    parts.length ≤ (commaSeparated parts).length + 1 := by
  have hcommas (others : List Bytes) :
      others.length ≤ (others.flatMap fun p => 0x2C :: p).length := by
    induction others with
    | nil => exact Nat.le_refl 0
    | cons p others ih =>
        simp only [List.flatMap_cons, List.length_append, List.length_cons]
        omega
  cases parts with
  | nil => exact Nat.zero_le _
  | cons part others =>
      have h := hcommas others
      rw [commaSeparated_cons, List.length_append, List.length_cons]
      omega

theorem mem_commaSeparated {b : UInt8} {parts : List Bytes}
    (h : b ∈ commaSeparated parts) : b = 0x2C ∨ ∃ p ∈ parts, b ∈ p := by
  cases parts with
  | nil => cases h
  | cons part others =>
      rw [commaSeparated_cons, List.mem_append, List.mem_flatMap] at h
      rcases h with hpart | ⟨p, hp, hb⟩
      · exact .inr ⟨part, List.mem_cons_self, hpart⟩
      · rcases List.mem_cons.1 hb with rfl | hb
        · exact .inl rfl
        · exact .inr ⟨p, List.mem_cons_of_mem part hp, hb⟩

-- ================================================================= values

/-- A value without numbers that nests at most so deep. -/
inductive Plain : Nat → Json → Prop where
  | null {depth : Nat} : Plain depth .null
  | bool {depth : Nat} (b : Bool) : Plain depth (.bool b)
  | string {depth : Nat} (text : Bytes) : Plain depth (.string text)
  | array {depth : Nat} {items : List Json}
      (hitems : ∀ v ∈ items, Plain depth v) :
      Plain (depth + 1) (.array items)
  | object {depth : Nat} {members : List (Bytes × Json)}
      (hmembers : ∀ m ∈ members, Plain depth m.2) :
      Plain (depth + 1) (.object members)

namespace Reader

variable {fuel budget : Nat} {rest : Bytes} {v : Json}

/-- Items with commas between them are read back, up to the bracket that
closes. -/
theorem items_commaSeparated {α : Type} {brackets : Brackets}
    {item : Bytes → Except Fault (α × Bytes)} {write : α → Bytes}
    (hmarked : brackets.Marked) {xs : List α}
    (hxs : ∀ x ∈ xs, ReadsBack brackets item write x)
    (hfuel : (commaSeparated (xs.map write)).length + 1 < fuel) :
    items brackets item fuel
        (commaSeparated (xs.map write) ++ brackets.close :: rest)
      = .ok (xs, rest) := by
  have hrounds : xs.length < fuel := by
    have hparts := length_parts_le (xs.map write)
    rw [List.length_map] at hparts
    omega
  obtain ⟨fuel, rfl⟩ := Nat.exists_eq_add_one_of_ne_zero
    (Nat.ne_of_gt (Nat.zero_lt_of_lt hrounds))
  unfold items
  cases xs with
  | nil => exact itemsFrom_close hmarked []
  | cons x xs =>
      rw [List.map_cons, commaSeparated_cons, List.append_assoc,
        List.flatMap_map, itemsFrom_first (hxs x List.mem_cons_self),
        itemsFrom_behind hmarked
          (fun y hy => hxs y (List.mem_cons_of_mem x hy))
          (Nat.lt_of_succ_lt_succ hrounds)]
      rfl

theorem string_escaped {text : Bytes} (hfuel : text.length < fuel) :
    string fuel (text.flatMap escapeByte ++ 0x22 :: rest) = .ok (text, rest) :=
  stringFrom_escaped text hfuel

/-- Every byte of a string takes at least one to write, and so do both
quotes. -/
theorem length_lt_quote (text : Bytes) :
    text.length + 1 < (quote text).length := by
  have hbyte (b : UInt8) : 1 ≤ (escapeByte b).length := by
    unfold escapeByte
    split
    · exact Nat.le_add_left 1 1
    · split
      · exact Nat.le_add_left 1 5
      · exact Nat.le_refl 1
  have htext : text.length ≤ (text.flatMap escapeByte).length := by
    induction text with
    | nil => exact Nat.le_refl 0
    | cons b text ih =>
        have := hbyte b
        rw [List.flatMap_cons, List.length_append, List.length_cons]
        omega
  simp only [quote, List.length_cons, List.length_append, List.length_nil]
  omega

/-- What opens no bracket is read as a scalar. -/
theorem value_scalar {b : UInt8} (hspace : isSpace b = false)
    (hlist : b ≠ 0x5B) (hobject : b ≠ 0x7B) :
    value fuel budget (b :: rest) = scalar fuel b rest := by
  cases budget with
  | zero =>
      rw [value, skipSpace_cons hspace]
      simp [hlist, hobject]
  | succ budget =>
      rw [value, skipSpace_cons hspace]
      simp [hlist, hobject]

/-- A member is read back if its value is. -/
theorem member_renderMember {m : Bytes × Json}
    {value : Bytes → Except Fault (Json × Bytes)}
    (hfuel : (renderMember m).length ≤ fuel)
    (hvalue : ∀ rest, value (render m.2 ++ rest) = .ok (m.2, rest)) :
    member fuel value (renderMember m ++ rest) = .ok (m, rest) := by
  obtain ⟨name, v⟩ := m
  have hname : name.length < fuel := by
    have := length_lt_quote name
    simp only [renderMember, List.length_append] at hfuel
    omega
  have htext : renderMember (name, v) ++ rest
      = 0x22 :: (name.flatMap escapeByte ++ 0x22 ::
          0x3A :: (render v ++ rest)) := by
    simp [renderMember, quote]
  rw [htext, member, if_neg (by decide), string_escaped hname]
  simp only [bind, Except.bind]
  rw [skipSpace_cons rfl]
  simp only [ne_eq, not_true_eq_false, ↓reduceIte, hvalue]

theorem renderMember_begins (m : Bytes × Json) :
    Begins objectBrackets (renderMember m) :=
  ⟨0x22, _, rfl, rfl, by decide⟩

theorem render_begins (h : Plain budget v) :
    Begins listBrackets (render v) := by
  cases h with
  | null => exact ⟨0x6E, _, rfl, rfl, by decide⟩
  | bool b =>
      cases b with
      | true => exact ⟨0x74, _, rfl, rfl, by decide⟩
      | false => exact ⟨0x66, _, rfl, rfl, by decide⟩
  | string text => exact ⟨0x22, _, rfl, rfl, by decide⟩
  | array hitems => exact ⟨0x5B, _, rfl, rfl, by decide⟩
  | object hmembers => exact ⟨0x7B, _, rfl, rfl, by decide⟩

/-- A list is read back if its items are. -/
theorem value_array {items : List Json}
    (hfuel : (render (.array items)).length ≤ fuel)
    (hitems : ∀ v ∈ items,
      ReadsBack listBrackets (value fuel budget) render v) :
    value fuel (budget + 1) (render (.array items) ++ rest)
      = .ok (.array items, rest) := by
  have htext : render (.array items) ++ rest
      = 0x5B :: (commaSeparated (items.map render)
          ++ listBrackets.close :: rest) := by
    simp [render, renderItems_eq, listBrackets]
  have hlength : (commaSeparated (items.map render)).length + 1 < fuel := by
    simp only [render, renderItems_eq, List.length_cons, List.length_append,
      List.length_nil] at hfuel
    omega
  rw [htext, value, skipSpace_cons rfl]
  simp only [↓reduceIte]
  rw [items_commaSeparated listBrackets_marked hitems hlength]
  rfl

/-- An object is read back if its members are. -/
theorem value_object {members : List (Bytes × Json)}
    (hfuel : (render (.object members)).length ≤ fuel)
    (hmembers : ∀ m ∈ members, ReadsBack objectBrackets
      (member fuel (value fuel budget)) renderMember m) :
    value fuel (budget + 1) (render (.object members) ++ rest)
      = .ok (.object members, rest) := by
  have htext : render (.object members) ++ rest
      = 0x7B :: (commaSeparated (members.map renderMember)
          ++ objectBrackets.close :: rest) := by
    simp [render, renderMembers_eq, objectBrackets]
  have hlength : (commaSeparated (members.map renderMember)).length + 1
      < fuel := by
    simp only [render, renderMembers_eq, List.length_cons, List.length_append,
      List.length_nil] at hfuel
    omega
  rw [htext, value, skipSpace_cons rfl]
  simp only [↓reduceIte]
  rw [if_neg (by decide),
    items_commaSeparated objectBrackets_marked hmembers hlength]
  rfl

/-- A plain value is read back, whatever follows it. -/
theorem value_render (h : Plain budget v) (hfuel : (render v).length ≤ fuel)
    (rest : Bytes) :
    value fuel budget (render v ++ rest) = .ok (v, rest) := by
  induction h generalizing rest with
  | null => exact value_scalar rfl (by decide) (by decide)
  | bool b =>
      cases b with
      | true => exact value_scalar rfl (by decide) (by decide)
      | false => exact value_scalar rfl (by decide) (by decide)
  | string text =>
      have htext : render (.string text) ++ rest
          = 0x22 :: (text.flatMap escapeByte ++ 0x22 :: rest) := by
        simp [render, quote]
      have hlength : text.length < fuel := by
        have := length_lt_quote text
        simp only [render] at hfuel
        omega
      rw [htext, value_scalar rfl (by decide) (by decide)]
      simp [scalar, string_escaped hlength, bind, Except.bind]
  | @array depth items hitems ih =>
      refine value_array hfuel fun v hv => ⟨render_begins (hitems v hv), ?_⟩
      refine ih v hv ?_
      have hpart := length_le_commaSeparated
        (List.mem_map_of_mem (f := render) hv)
      simp only [render, renderItems_eq, List.length_cons,
        List.length_append] at hfuel
      omega
  | @object depth members hmembers ih =>
      refine value_object hfuel fun m hm => ⟨renderMember_begins m, ?_⟩
      have hpart := length_le_commaSeparated
        (List.mem_map_of_mem (f := renderMember) hm)
      have hmember : (renderMember m).length ≤ fuel := by
        simp only [render, renderMembers_eq, List.length_cons,
          List.length_append] at hfuel
        omega
      have hvalue : (render m.2).length ≤ fuel := by
        simp only [renderMember, List.length_append,
          List.length_cons] at hmember
        omega
      exact fun rest => member_renderMember hmember (ih m hm hvalue)

end Reader

-- ============================================================= whole texts

theorem le_hexDigit : ∀ n < 16, 0x20 ≤ hexDigit n := by
  decide

/-- Of some bytes that are at hand it can be looked up that none is a control
character. -/
theorem le_of_all {bytes : Bytes} (h : bytes.all (0x20 ≤ ·) = true)
    {b : UInt8} (hb : b ∈ bytes) : 0x20 ≤ b :=
  of_decide_eq_true (List.all_eq_true.1 h b hb)

theorem le_of_mem_escapeByte {b c : UInt8} (h : c ∈ escapeByte b) :
    0x20 ≤ c := by
  unfold escapeByte at h
  split at h
  next letter hletter =>
    rcases List.mem_cons.1 h with rfl | h
    · decide
    · rw [List.mem_singleton.1 h]
      exact (Reader.letterEscape?_of_escapeLetter? hletter).1
  next =>
    split at h
    next hcontrol =>
      have hb : b.toNat < 0x20 := UInt8.lt_iff_toNat_lt.1 hcontrol
      have hnumber : c ∈ ([0x5C, 0x75, 0x30, 0x30] : Bytes)
          ++ [hexDigit (b.toNat / 16), hexDigit (b.toNat % 16)] := h
      rcases List.mem_append.1 hnumber with hmark | hdigit
      · exact le_of_all (by decide) hmark
      · rcases List.mem_cons.1 hdigit with rfl | hdigit
        · exact le_hexDigit _ (by omega)
        · rw [List.mem_singleton.1 hdigit]
          exact le_hexDigit _ (by omega)
    next hplain =>
      rw [List.mem_singleton.1 h]
      exact UInt8.not_lt.1 hplain

theorem le_of_mem_quote {text : Bytes} {b : UInt8} (h : b ∈ quote text) :
    0x20 ≤ b := by
  unfold quote at h
  rcases List.mem_cons.1 h with rfl | h
  · decide
  · rcases List.mem_append.1 h with h | h
    · obtain ⟨c, -, hb⟩ := List.mem_flatMap.1 h
      exact le_of_mem_escapeByte hb
    · rw [List.mem_singleton.1 h]
      decide

/-- What is written between brackets has no control characters if its parts
have none. -/
theorem le_of_mem_parts {parts : List Bytes} {opening closing b : UInt8}
    (hopening : 0x20 ≤ opening) (hclosing : 0x20 ≤ closing)
    (hparts : ∀ part ∈ parts, ∀ c ∈ part, 0x20 ≤ c)
    (h : b ∈ opening :: (commaSeparated parts ++ [closing])) : 0x20 ≤ b := by
  rcases List.mem_cons.1 h with rfl | h
  · exact hopening
  · rcases List.mem_append.1 h with h | h
    · rcases mem_commaSeparated h with rfl | ⟨part, hpart, hb⟩
      · decide
      · exact hparts part hpart b hb
    · rw [List.mem_singleton.1 h]
      exact hclosing

/-- No byte of what a plain value is written as is a control character; so it
stands on one line. -/
theorem le_of_mem_render {depth : Nat} {v : Json} (h : Plain depth v)
    {b : UInt8} (hb : b ∈ render v) : 0x20 ≤ b := by
  induction h generalizing b with
  | null => exact le_of_all (by decide) hb
  | bool truth => cases truth <;> exact le_of_all (by decide) hb
  | string text => exact le_of_mem_quote hb
  | array hitems ih =>
      rw [render, renderItems_eq] at hb
      refine le_of_mem_parts (by decide) (by decide) ?_ hb
      intro part hpart c hc
      obtain ⟨v, hv, rfl⟩ := List.mem_map.1 hpart
      exact ih v hv hc
  | object hmembers ih =>
      rw [render, renderMembers_eq] at hb
      refine le_of_mem_parts (by decide) (by decide) ?_ hb
      intro part hpart c hc
      obtain ⟨m, hm, rfl⟩ := List.mem_map.1 hpart
      rcases List.mem_append.1 hc with hc | hc
      · exact le_of_mem_quote hc
      · rcases List.mem_cons.1 hc with rfl | hc
        · decide
        · exact ih m hm hc

/-- A plain value that nests no deeper than is allowed is read back from what
it is written as, with white space behind it. -/
theorem read_render {v : Json} (h : Plain depthLimit v) {space : Bytes}
    (hspace : ∀ b ∈ space, Reader.isSpace b = true) :
    read (render v ++ space) = .ok v := by
  have hend : Reader.expectEnd space = .ok () := by
    unfold Reader.expectEnd Reader.skipSpace
    rw [List.dropWhile_eq_nil_iff.2 hspace]
  have hfuel : (render v).length ≤ fuelFor (render v ++ space) := by
    unfold fuelFor
    rw [List.length_append]
    omega
  unfold read
  rw [Reader.value_render h hfuel]
  simp only [bind, Except.bind]
  rw [hend]

-- ================================================================== texts

open Utf8 (IsText isText_append isText_encode isText_flatMap isText_ascii
  encode)

theorem escapeByte_ascii : ∀ n < 0x80,
    (escapeByte (.ofNat n)).all (· < 0x80) = true := by
  decide

theorem escapeByte_of_le {b : UInt8} (h : 0x80 ≤ b) : escapeByte b = [b] := by
  have hne {mark : UInt8} (hmark : mark < 0x80) : b ≠ mark := by
    rintro rfl
    exact absurd hmark (UInt8.not_lt.2 h)
  have hletter : escapeLetter? b = none := by
    unfold escapeLetter?
    rw [if_neg (hne (by decide)), if_neg (hne (by decide)),
      if_neg (hne (by decide)), if_neg (hne (by decide)),
      if_neg (hne (by decide)), if_neg (hne (by decide)),
      if_neg (hne (by decide))]
  have hplain : ¬ b < 0x20 := by
    intro hlt
    have : (0x80 : UInt8) < 0x20 := UInt8.lt_of_le_of_lt h hlt
    exact absurd this (by decide)
  unfold escapeByte
  rw [hletter]
  simp only []
  rw [if_neg hplain]

/-- A text between quotes is a text. -/
theorem isText_quote (s : String) : IsText (quote (encode s)) := by
  have hchar (c : Char) :
      IsText ((String.utf8EncodeChar c).flatMap escapeByte) := by
    rcases Utf8.utf8EncodeChar_cases c with ⟨b, hb, hc⟩ | hhigh
    · rw [hc, List.flatMap_singleton]
      refine isText_ascii fun d hd => ?_
      have hall := escapeByte_ascii b.toNat (UInt8.lt_iff_toNat_lt.1 hb)
      rw [UInt8.ofNat_toNat] at hall
      exact of_decide_eq_true (List.all_eq_true.1 hall d hd)
    · have hsame : (String.utf8EncodeChar c).flatMap escapeByte
          = String.utf8EncodeChar c := by
        have hself : (String.utf8EncodeChar c).map escapeByte
            = (String.utf8EncodeChar c).map fun b => [b] :=
          List.map_congr_left fun b hb => escapeByte_of_le (hhigh b hb)
        rw [List.flatMap_def, hself, ← List.flatMap_def]
        simp
      rw [hsame]
      exact ⟨.ofList [c], by simp [encode, Utf8.encodeChars]⟩
  have hquotes : quote (encode s)
      = [0x22] ++ (s.toList.flatMap fun c =>
          (String.utf8EncodeChar c).flatMap escapeByte) ++ [0x22] := by
    simp [quote, encode, Utf8.encodeChars, List.flatMap_assoc]
  rw [hquotes]
  have hquote : IsText [0x22] := isText_encode "\""
  exact isText_append
    (isText_append hquote (isText_flatMap fun c _ => hchar c)) hquote
theorem isText_commaSeparated {parts : List Bytes}
    (h : ∀ part ∈ parts, IsText part) : IsText (commaSeparated parts) := by
  cases parts with
  | nil => exact isText_encode ""
  | cons part parts =>
      obtain ⟨hpart, hparts⟩ := List.forall_mem_cons.1 h
      have hcomma : IsText [0x2C] := isText_encode ","
      rw [commaSeparated_cons]
      exact isText_append hpart
        (isText_flatMap fun p hp => isText_append hcomma (hparts p hp))

end Toolrun.Json
