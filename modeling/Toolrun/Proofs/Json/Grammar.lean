/-
The grammar of JSON, without a reader. Every piece of it is a relation between
what is said, a text that says it at its front, and what is left behind that;
so a piece that is made of others is the others one after the other, and
nothing has to be said about how texts are put together.

White space may stand between any two tokens and is the four bytes that the
format names. A string is a row of characters, of which some are written as
escapes. Lists and objects are the same thing with other brackets and other
items (`Items`). What the grammar does not bound are the depth of a value and
the size of its numbers (`Within`).
-/
import Mathlib.Data.List.Forall2
import Toolrun.Json.Reader

namespace Toolrun.Json

open Reader (isSpace isDigit hexValue? letterEscape?)

-- ================================================================= tokens

/-- White space, if there is any. -/
inductive Space : Bytes → Bytes → Prop
  | none {rest : Bytes} : Space rest rest
  | more {b : UInt8} {text rest : Bytes} (hb : isSpace b = true)
      (h : Space text rest) : Space (b :: text) rest

/-- Four hexadecimal digits and the number they make. -/
inductive Hex : Nat → Bytes → Bytes → Prop
  | mk {a b c d : UInt8} {w x y z : Nat} {rest : Bytes}
      (ha : hexValue? a = some w) (hb : hexValue? b = some x)
      (hc : hexValue? c = some y) (hd : hexValue? d = some z) :
      Hex (((w * 16 + x) * 16 + y) * 16 + z) (a :: b :: c :: d :: rest) rest

/-- The first half of a pair of surrogates. -/
def IsHigh (code : Nat) : Prop := 0xD800 ≤ code ∧ code ≤ 0xDBFF

/-- The second half of a pair of surrogates. -/
def IsLow (code : Nat) : Prop := 0xDC00 ≤ code ∧ code ≤ 0xDFFF

instance (code : Nat) : Decidable (IsHigh code) :=
  inferInstanceAs (Decidable (_ ∧ _))

instance (code : Nat) : Decidable (IsLow code) :=
  inferInstanceAs (Decidable (_ ∧ _))

theorem IsHigh.not_isLow {code : Nat} (h : IsHigh code) : ¬ IsLow code := by
  have := h.2
  unfold IsLow
  omega

/-- The code that a pair of surrogates stands for. -/
def pairCode (high low : Nat) : Nat :=
  0x10000 + (high - 0xD800) * 0x400 + (low - 0xDC00)

/-- The character that an escape with a number stands for: one code, or a pair
of surrogates, the second of which is an escape of its own. -/
inductive Coded : Char → Bytes → Bytes → Prop
  | single {text rest : Bytes} {code : Nat} (hcode : Hex code text rest)
      (hhigh : ¬ IsHigh code) (hlow : ¬ IsLow code) :
      Coded (Char.ofNat code) text rest
  | pair {text between rest : Bytes} {high low : Nat}
      (hfirst : Hex high text (0x5C :: 0x75 :: between))
      (hsecond : Hex low between rest) (hhigh : IsHigh high)
      (hlow : IsLow low) : Coded (Char.ofNat (pairCode high low)) text rest

/-- What a string says, from behind the quote that opens it to behind the one
that closes it. -/
inductive Chars : Bytes → Bytes → Bytes → Prop
  | close {rest : Bytes} : Chars [] (0x22 :: rest) rest
  | plain {b : UInt8} {said text rest : Bytes} (hquote : b ≠ 0x22)
      (hbackslash : b ≠ 0x5C) (hcontrol : 0x20 ≤ b)
      (h : Chars said text rest) : Chars (b :: said) (b :: text) rest
  | letter {b plain : UInt8} {said text rest : Bytes}
      (hletter : letterEscape? b = some plain) (h : Chars said text rest) :
      Chars (plain :: said) (0x5C :: b :: text) rest
  | coded {c : Char} {said text behind rest : Bytes}
      (hcode : Coded c text behind) (h : Chars said behind rest) :
      Chars (String.utf8EncodeChar c ++ said) (0x5C :: 0x75 :: text) rest

/-- What has no marks in it stands for itself. -/
theorem chars_plain {said rest : Bytes}
    (h : ∀ b ∈ said, b ≠ 0x22 ∧ b ≠ 0x5C ∧ 0x20 ≤ b) :
    Chars said (said ++ 0x22 :: rest) rest := by
  induction said with
  | nil => exact .close
  | cons b said ih =>
      obtain ⟨⟨hquote, hbackslash, hcontrol⟩, h⟩ := List.forall_mem_cons.1 h
      exact .plain hquote hbackslash hcontrol (ih h)

-- ================================================================ lengths

section

variable {text rest : Bytes}

theorem Space.length_le (h : Space text rest) : rest.length ≤ text.length := by
  induction h with
  | none => exact Nat.le_refl _
  | more _ _ ih => exact Nat.le_succ_of_le ih

theorem Hex.length_lt {code : Nat} (h : Hex code text rest) :
    rest.length < text.length := by
  cases h
  simp only [List.length_cons]
  omega

theorem Coded.length_lt {c : Char} (h : Coded c text rest) :
    rest.length < text.length := by
  cases h with
  | single hcode _ _ => exact hcode.length_lt
  | pair hfirst hsecond _ _ =>
      have hfirst := hfirst.length_lt
      have hsecond := hsecond.length_lt
      simp only [List.length_cons] at hfirst
      omega

theorem Chars.length_lt {said : Bytes} (h : Chars said text rest) :
    rest.length < text.length := by
  induction h with
  | close => exact Nat.lt_succ_self _
  | plain _ _ _ _ ih => exact Nat.lt_succ_of_lt ih
  | letter _ _ ih => exact Nat.lt_succ_of_lt (Nat.lt_succ_of_lt ih)
  | coded hcode _ ih =>
      have hcode := hcode.length_lt
      simp only [List.length_cons]
      omega

end

-- ================================================================ numbers

/-- Some digits, and nothing else. -/
def IsDigits (digits : Bytes) : Prop :=
  digits ≠ [] ∧ ∀ d ∈ digits, isDigit d = true

/-- The digits before the point: a zero in front stands alone. -/
def IsWhole (digits : Bytes) : Prop :=
  IsDigits digits ∧ (digits.head? = some 0x30 → digits = [0x30])

/-- The digits behind the point as they are written, with the point. -/
inductive Fraction : Bytes → Bytes → Prop
  | absent : Fraction [] []
  | point {digits : Bytes} (h : IsDigits digits) :
      Fraction digits (0x2E :: digits)

/-- An exponent as it is written. -/
inductive Exponent : Option (Bool × Bytes) → Bytes → Prop
  | absent : Exponent none []
  | bare {e : UInt8} {digits : Bytes} (he : e = 0x65 ∨ e = 0x45)
      (h : IsDigits digits) : Exponent (some (false, digits)) (e :: digits)
  | plus {e : UInt8} {digits : Bytes} (he : e = 0x65 ∨ e = 0x45)
      (h : IsDigits digits) :
      Exponent (some (false, digits)) (e :: 0x2B :: digits)
  | minus {e : UInt8} {digits : Bytes} (he : e = 0x65 ∨ e = 0x45)
      (h : IsDigits digits) :
      Exponent (some (true, digits)) (e :: 0x2D :: digits)

/-- A number from behind its sign. -/
inductive Unsigned : Numeral → Bytes → Bytes → Prop
  | mk {negative : Bool} {whole fraction point behind rest : Bytes}
      {exponent : Option (Bool × Bytes)} (hwhole : IsWhole whole)
      (hfraction : Fraction fraction point)
      (hexponent : Exponent exponent behind) :
      Unsigned ⟨negative, whole, fraction, exponent⟩
        (whole ++ (point ++ (behind ++ rest))) rest

-- ================================================================= values

section

variable {α : Type} (close : UInt8) (Item : α → Bytes → Bytes → Prop)

/-- What stands behind an item, up to and including the closing bracket: the
other items, each behind a comma. -/
inductive More : List α → Bytes → Bytes → Prop
  | close {text rest : Bytes} (h : Space text (close :: rest)) :
      More [] text rest
  | next {text behind front after rest : Bytes} {x : α} {xs : List α}
      (hcomma : Space text (0x2C :: behind)) (hspace : Space behind front)
      (hitem : Item x front after) (h : More xs after rest) :
      More (x :: xs) text rest

/-- Items from behind the opening bracket to behind the closing one. -/
inductive Items : List α → Bytes → Bytes → Prop
  | none {text rest : Bytes} (h : Space text (close :: rest)) :
      Items [] text rest
  | some {text front after rest : Bytes} {x : α} {xs : List α}
      (hspace : Space text front) (hitem : Item x front after)
      (h : More close Item xs after rest) : Items (x :: xs) text rest

end

section

variable {α β : Type} {close : UInt8} {Item : α → Bytes → Bytes → Prop}
  {text rest : Bytes}

theorem More.length_lt {xs : List α} (h : More close Item xs text rest)
    (hitem : ∀ x ∈ xs, ∀ {text rest}, Item x text rest →
      rest.length < text.length) : rest.length < text.length := by
  induction h with
  | close h => exact h.length_le
  | @next text behind front after rest x xs hcomma hspace hx _ ih =>
      have hcomma := hcomma.length_le
      have hspace := hspace.length_le
      have hx := hitem x List.mem_cons_self hx
      have ih := ih fun y hy => hitem y (List.mem_cons_of_mem x hy)
      simp only [List.length_cons] at hcomma
      omega

theorem Items.length_lt {xs : List α} (h : Items close Item xs text rest)
    (hitem : ∀ x ∈ xs, ∀ {text rest}, Item x text rest →
      rest.length < text.length) : rest.length < text.length := by
  cases h with
  | none h => exact h.length_le
  | @some _ _ _ _ x xs hspace hx hmore =>
      have hspace := hspace.length_le
      have hx := hitem x List.mem_cons_self hx
      have hmore := hmore.length_lt
        fun y hy => hitem y (List.mem_cons_of_mem x hy)
      omega

theorem more_exists_iff {R : α → β → Prop} {ys : List β} :
    More close (fun y t r => ∃ x, Item x t r ∧ R x y) ys text rest
      ↔ ∃ xs, More close Item xs text rest ∧ List.Forall₂ R xs ys := by
  constructor
  · intro h
    induction h with
    | close h => exact ⟨[], .close h, .nil⟩
    | next hcomma hspace hitem _ ih =>
        obtain ⟨x, hitem, hx⟩ := hitem
        obtain ⟨xs, hmore, hxs⟩ := ih
        exact ⟨x :: xs, .next hcomma hspace hitem hmore, .cons hx hxs⟩
  · rintro ⟨xs, hmore, hxs⟩
    induction hmore generalizing ys with
    | close h =>
        cases hxs
        exact .close h
    | next hcomma hspace hitem _ ih =>
        obtain _ | ⟨hx, hxs⟩ := hxs
        exact .next hcomma hspace ⟨_, hitem, hx⟩ (ih hxs)

/-- Items that stand for something are items, and each stands for what is in
its place. -/
theorem items_exists_iff {R : α → β → Prop} {ys : List β} :
    Items close (fun y t r => ∃ x, Item x t r ∧ R x y) ys text rest
      ↔ ∃ xs, Items close Item xs text rest ∧ List.Forall₂ R xs ys := by
  constructor
  · intro h
    cases h with
    | none h => exact ⟨[], .none h, .nil⟩
    | some hspace hitem hmore =>
        obtain ⟨x, hitem, hx⟩ := hitem
        obtain ⟨xs, hmore, hxs⟩ := more_exists_iff.1 hmore
        exact ⟨x :: xs, .some hspace hitem hmore, .cons hx hxs⟩
  · rintro ⟨xs, hitems, hxs⟩
    cases hitems with
    | none h =>
        cases hxs
        exact .none h
    | some hspace hitem hmore =>
        obtain _ | ⟨hx, hxs⟩ := hxs
        exact .some hspace ⟨_, hitem, hx⟩ (more_exists_iff.2 ⟨_, hmore, hxs⟩)

/-- What holds of every item holds of the items that are read. -/
theorem items_and_iff {P : α → Prop} {xs : List α} :
    Items close (fun x t r => Item x t r ∧ P x) xs text rest
      ↔ Items close Item xs text rest ∧ ∀ x ∈ xs, P x := by
  have hitem : (fun x t r => Item x t r ∧ P x)
      = fun y t r => ∃ x, Item x t r ∧ (P x ∧ x = y) := by
    funext y t r
    simp [and_comm]
  rw [hitem, items_exists_iff]
  simp only [List.forall₂_and_left, List.forall₂_eq_eq_eq]
  constructor
  · rintro ⟨_, hitems, hall, rfl⟩
    exact ⟨hitems, hall⟩
  · rintro ⟨hitems, hall⟩
    exact ⟨xs, hitems, hall, rfl⟩

end

/-- A member of an object: its name, a colon, and its value. -/
inductive Member (Value : Json → Bytes → Bytes → Prop) :
    Bytes × Json → Bytes → Bytes → Prop
  | mk {name text behind front value rest : Bytes} {v : Json}
      (hname : Chars name text behind) (hcolon : Space behind (0x3A :: front))
      (hspace : Space front value) (hvalue : Value v value rest) :
      Member Value (name, v) (0x22 :: text) rest

theorem Member.length_lt {Value : Json → Bytes → Bytes → Prop}
    {m : Bytes × Json} {text rest : Bytes} (h : Member Value m text rest)
    (hvalue : ∀ {text rest}, Value m.2 text rest →
      rest.length < text.length) : rest.length < text.length := by
  obtain ⟨hname, hcolon, hspace, h⟩ := h
  have hname := hname.length_lt
  have hcolon := hcolon.length_le
  have hspace := hspace.length_le
  have h := hvalue h
  simp only [List.length_cons] at hcolon ⊢
  omega

theorem member_and_iff {Value : Json → Bytes → Bytes → Prop}
    {P : Json → Prop} {m : Bytes × Json} {text rest : Bytes} :
    Member (fun v t r => Value v t r ∧ P v) m text rest
      ↔ Member Value m text rest ∧ P m.2 := by
  constructor
  · rintro ⟨hname, hcolon, hspace, h, hv⟩
    exact ⟨.mk hname hcolon hspace h, hv⟩
  · rintro ⟨⟨hname, hcolon, hspace, h⟩, hv⟩
    exact .mk hname hcolon hspace ⟨h, hv⟩

/-- A value, from its first byte on. -/
inductive Value : Json → Bytes → Bytes → Prop
  | null {rest : Bytes} :
      Value .null (0x6E :: 0x75 :: 0x6C :: 0x6C :: rest) rest
  | true {rest : Bytes} :
      Value (.bool true) (0x74 :: 0x72 :: 0x75 :: 0x65 :: rest) rest
  | false {rest : Bytes} :
      Value (.bool false) (0x66 :: 0x61 :: 0x6C :: 0x73 :: 0x65 :: rest) rest
  | positive {n : Numeral} {text rest : Bytes} (hn : n.negative = false)
      (h : Unsigned n text rest) : Value (.number n) text rest
  | negative {n : Numeral} {text rest : Bytes} (hn : n.negative = true)
      (h : Unsigned n text rest) : Value (.number n) (0x2D :: text) rest
  | string {said text rest : Bytes} (h : Chars said text rest) :
      Value (.string said) (0x22 :: text) rest
  | array {items : List Json} {text rest : Bytes}
      (h : Items 0x5D Value items text rest) :
      Value (.array items) (0x5B :: text) rest
  | object {members : List (Bytes × Json)} {text rest : Bytes}
      (h : Items 0x7D (Member Value) members text rest) :
      Value (.object members) (0x7B :: text) rest

-- ================================================================= bounds

/-- A value that nests at most so deep and has only numbers of a certain
kind. -/
inductive Within (IsGood : Numeral → Prop) : Nat → Json → Prop
  | null {depth : Nat} : Within IsGood depth .null
  | bool {depth : Nat} (b : Bool) : Within IsGood depth (.bool b)
  | number {depth : Nat} {n : Numeral} (h : IsGood n) :
      Within IsGood depth (.number n)
  | string {depth : Nat} (text : Bytes) : Within IsGood depth (.string text)
  | array {depth : Nat} {items : List Json}
      (hitems : ∀ v ∈ items, Within IsGood depth v) :
      Within IsGood (depth + 1) (.array items)
  | object {depth : Nat} {members : List (Bytes × Json)}
      (hmembers : ∀ m ∈ members, Within IsGood depth m.2) :
      Within IsGood (depth + 1) (.object members)

theorem Unsigned.length_lt {n : Numeral} {text rest : Bytes}
    (h : Unsigned n text rest) : rest.length < text.length := by
  obtain ⟨⟨⟨hne, -⟩, -⟩, -, -⟩ := h
  have hpositive := List.length_pos_of_ne_nil hne
  simp only [List.length_append]
  omega

/-- A value takes at least one byte. -/
theorem Value.length_lt {IsGood : Numeral → Prop} {depth : Nat} {v : Json}
    (hv : Within IsGood depth v) {text rest : Bytes} (h : Value v text rest) :
    rest.length < text.length := by
  induction hv generalizing text rest with
  | null | bool _ =>
      cases h <;> simp only [List.length_cons] <;> omega
  | number _ =>
      cases h with
      | positive _ h => exact h.length_lt
      | negative _ h => exact Nat.lt_succ_of_lt h.length_lt
  | string _ =>
      cases h with
      | string h => exact Nat.lt_succ_of_lt h.length_lt
  | array _ ih =>
      cases h with
      | array h =>
          exact Nat.lt_succ_of_lt (h.length_lt fun v hv => ih v hv)
  | object _ ih =>
      cases h with
      | object h =>
          exact Nat.lt_succ_of_lt
            (h.length_lt fun m hm => fun hmember =>
              hmember.length_lt (ih m hm))

end Toolrun.Json
