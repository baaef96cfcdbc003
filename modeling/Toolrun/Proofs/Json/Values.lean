/-
The reader of values takes what the grammar allows, as far as it has room for
it, and nothing else.

Lists and objects are read by one loop, and what the loop needs to know of the
reader of an item is put down once (`Reads`): what it reads is an item, it
reads every item that is there, and an item is neither empty nor begins like a
bracket that closes. Given that, the loop reads items and commas as the
grammar has them (`items_of_read`, `read_of_items`). A value with room for one
more bracket is then read from values with less room, by induction on the room
(`reads_value`).
-/
import Toolrun.Proofs.Json.Tokens

namespace Toolrun.Json.Reader

open Fallible

variable {fuel : Nat} {text rest : Bytes}

-- ================================================================== items

section

variable {α : Type} {brackets : Brackets}
  {item : Bytes → Except Fault (α × Bytes)}
  {Item : α → Bytes → Bytes → Prop}

/-- A reader of items that goes by the grammar of these items. -/
structure Reads (fuel : Nat) (brackets : Brackets)
    (item : Bytes → Except Fault (α × Bytes))
    (Item : α → Bytes → Bytes → Prop) : Prop where
  sound {x : α} {text rest : Bytes} (h : item text = .ok (x, rest)) :
    Item x (skipSpace text) rest
  complete {x : α} {text rest : Bytes} (h : Item x text rest)
    (hends : EndsNumber rest) (hfuel : text.length ≤ fuel) :
    item text = .ok (x, rest)
  begins {x : α} {text rest : Bytes} (h : Item x text rest) :
    Begins brackets text
  shorter {x : α} {text rest : Bytes} (h : Item x text rest) :
    rest.length < text.length

/-- Brackets whose closing mark is none of the marks inside an item. -/
structure Brackets.Close (brackets : Brackets) : Prop
    extends brackets.Marked where
  ends : ∀ rest, EndsNumber (brackets.close :: rest)

theorem listBrackets_close : listBrackets.Close where
  toMarked := listBrackets_marked
  ends := by
    rintro rest b ⟨⟩
    decide

theorem objectBrackets_close : objectBrackets.Close where
  toMarked := objectBrackets_marked
  ends := by
    rintro rest b ⟨⟩
    decide

theorem endsNumber_of_space (h : Space text rest) (hrest : EndsNumber rest) :
    EndsNumber text := by
  cases h with
  | none => exact hrest
  | more hb _ =>
      rintro b ⟨⟩
      simp only [isSpace, Bool.or_eq_true, beq_iff_eq] at hb
      rcases hb with ((rfl | rfl) | rfl) | rfl <;> decide

/-- An item ends at what has to be behind it. -/
theorem endsNumber_of_more (hclose : brackets.Close) {xs : List α}
    (h : More brackets.close Item xs text rest) : EndsNumber text := by
  cases h with
  | close h => exact endsNumber_of_space h (hclose.ends rest)
  | next hcomma =>
      refine endsNumber_of_space hcomma ?_
      rintro b ⟨⟩
      decide

/-- What the loop reads behind an item is what has to be there. -/
theorem more_of_itemsFrom (h : Reads fuel brackets item Item) {rounds : Nat}
    {x : α} {found xs : List α}
    (hread : itemsFrom brackets item rounds (x :: found) text
      = .ok (xs, rest)) :
    ∃ more, More brackets.close Item more text rest
      ∧ xs = (x :: found).reverse ++ more := by
  induction rounds generalizing x found text with
  | zero => cases hread
  | succ rounds ih =>
      rw [itemsFrom] at hread
      split at hread
      next => cases hread
      next b after hskip =>
        have hspace : Space text (b :: after) := by
          rw [← hskip]
          exact space_skipSpace text
        split at hread
        next hb =>
          cases hread
          subst hb
          exact ⟨[], .close hspace, (List.append_nil _).symm⟩
        next hb =>
          rw [if_neg (by simp)] at hread
          split at hread
          next hcomma =>
            subst hcomma
            split at hread
            next => cases hread
            next c behind hbehind =>
              split at hread
              next => cases hread
              next =>
                obtain ⟨⟨y, left⟩, hitem, hread⟩ := bind_eq_ok.1 hread
                obtain ⟨more, hmore, rfl⟩ := ih hread
                have hitem := h.sound hitem
                rw [skipSpace_cons (isSpace_of_skipSpace hbehind),
                  ← hbehind] at hitem
                refine ⟨y :: more, ?_, ?_⟩
                · exact .next hspace (space_skipSpace after) hitem hmore
                · rw [List.reverse_cons, List.append_assoc]
                  rfl
          next => cases hread

/-- The loop reads what has to be behind an item. -/
theorem itemsFrom_of_more (h : Reads fuel brackets item Item)
    (hclose : brackets.Close) {rounds : Nat} {x : α} {found xs : List α}
    (hmore : More brackets.close Item xs text rest)
    (hfuel : text.length ≤ fuel) (hrounds : text.length ≤ rounds) :
    itemsFrom brackets item rounds (x :: found) text
      = .ok ((x :: found).reverse ++ xs, rest) := by
  induction hmore generalizing rounds x found with
  | close hspace =>
      have hlength := hspace.length_le
      obtain ⟨rounds, rfl⟩ := Nat.exists_eq_add_one_of_ne_zero
        (Nat.ne_of_gt (Nat.lt_of_lt_of_le (Nat.zero_lt_succ _)
          (hlength.trans hrounds)))
      rw [itemsFrom, skipSpace_of_space hspace hclose.notSpace,
        List.append_nil]
      simp only [↓reduceIte]
  | @next text behind front after rest y ys hcomma hspace hitem hmore ih =>
      have hbefore := hcomma.length_le
      have hbehind := hspace.length_le
      have hshorter := h.shorter hitem
      simp only [List.length_cons] at hbefore
      obtain ⟨rounds, rfl⟩ := Nat.exists_eq_add_one_of_ne_zero
        (show rounds ≠ 0 by omega)
      have hread := h.complete hitem (endsNumber_of_more hclose hmore)
        (by omega)
      obtain ⟨b, others, rfl, hb, hnot⟩ := h.begins hitem
      rw [itemsFrom, skipSpace_of_space hcomma rfl]
      simp only []
      rw [if_neg hclose.notComma.symm, if_neg (by simp), if_pos trivial,
        skipSpace_of_space hspace hb]
      simp only []
      rw [if_neg hnot, hread]
      simp only [bind, Except.bind]
      rw [ih (by omega) (by omega), List.reverse_cons, List.append_assoc]
      rfl

/-- What is read from behind an opening bracket is items. -/
theorem items_of_read (h : Reads fuel brackets item Item) {rounds : Nat}
    {xs : List α}
    (hread : items brackets item rounds text = .ok (xs, rest)) :
    Items brackets.close Item xs text rest := by
  unfold items at hread
  cases rounds with
  | zero => cases hread
  | succ rounds =>
      rw [itemsFrom] at hread
      split at hread
      next => cases hread
      next b after hskip =>
        have hspace := space_skipSpace text
        split at hread
        next hb =>
          cases hread
          subst hb
          rw [hskip] at hspace
          exact .none hspace
        next =>
          rw [if_pos List.isEmpty_nil] at hread
          obtain ⟨⟨x, left⟩, hitem, hread⟩ := bind_eq_ok.1 hread
          obtain ⟨more, hmore, rfl⟩ := more_of_itemsFrom h hread
          have hitem := h.sound hitem
          rw [skipSpace_cons (isSpace_of_skipSpace hskip), ← hskip] at hitem
          exact .some hspace hitem hmore

/-- Items are read from behind an opening bracket. -/
theorem read_of_items (h : Reads fuel brackets item Item)
    (hclose : brackets.Close) {xs : List α}
    (hitems : Items brackets.close Item xs text rest)
    (hfuel : text.length ≤ fuel) :
    items brackets item fuel text = .ok (xs, rest) := by
  have hpositive : fuel ≠ 0 := by
    cases hitems with
    | none hspace =>
        have := hspace.length_le
        simp only [List.length_cons] at this
        omega
    | some hspace hitem _ =>
        have := hspace.length_le
        have := h.shorter hitem
        omega
  obtain ⟨rounds, hrounds⟩ := Nat.exists_eq_add_one_of_ne_zero hpositive
  unfold items
  rw [hrounds, itemsFrom]
  cases hitems with
  | none hspace =>
      rw [skipSpace_of_space hspace hclose.notSpace]
      simp only [↓reduceIte, List.reverse_nil]
  | some hspace hitem hmore =>
      have hbefore := hspace.length_le
      have hshorter := h.shorter hitem
      have hread := h.complete hitem (endsNumber_of_more hclose hmore)
        (by omega)
      obtain ⟨b, others, rfl, hb, hnot⟩ := h.begins hitem
      rw [skipSpace_of_space hspace hb]
      simp only []
      rw [if_neg hnot, if_pos List.isEmpty_nil, hread]
      simp only [bind, Except.bind]
      exact itemsFrom_of_more h hclose hmore (by omega) (by omega)

end

-- ================================================================= values

/-- The letters of a word are read just when they stand there. -/
theorem word_eq_ok {value v : Json} {letters : Bytes} :
    word value letters text = .ok (v, rest)
      ↔ v = value ∧ text = letters ++ rest := by
  induction letters generalizing text with
  | nil =>
      rw [word]
      constructor
      · intro h
        cases h
        exact ⟨rfl, rfl⟩
      · rintro ⟨rfl, rfl⟩
        rfl
  | cons w letters ih =>
      cases text with
      | nil =>
          constructor
          · intro h
            cases h
          · rintro ⟨-, h⟩
            cases h
      | cons b text =>
          rw [word]
          split
          next hb =>
            rw [ih, hb, List.cons_append, List.cons.injEq]
            simp only [true_and]
          next hb =>
            constructor
            · intro h
              cases h
            · rintro ⟨-, h⟩
              cases h
              exact absurd rfl hb

/-- A value of the grammar that there is room for, and whose numbers
convert. -/
def Bounded (budget : Nat) (v : Json) (text rest : Bytes) : Prop :=
  Value v text rest ∧ Within Numeral.Converts budget v

theorem chars_of_string {said : Bytes}
    (h : string fuel text = .ok (said, rest)) : Chars said text rest := by
  obtain ⟨more, hmore, rfl⟩ := chars_of_stringFrom h
  exact hmore

/-- What is read as a scalar is one. -/
theorem bounded_of_scalar {b : UInt8} {v : Json} {budget : Nat}
    (h : scalar fuel b text = .ok (v, rest)) :
    Bounded budget v (b :: text) rest := by
  unfold scalar at h
  split at h
  next hb =>
    obtain ⟨rfl, rfl⟩ := word_eq_ok.1 h
    subst hb
    exact ⟨.null, .null⟩
  split at h
  next hb =>
    obtain ⟨rfl, rfl⟩ := word_eq_ok.1 h
    subst hb
    exact ⟨.true, .bool _⟩
  split at h
  next hb =>
    obtain ⟨rfl, rfl⟩ := word_eq_ok.1 h
    subst hb
    exact ⟨.false, .bool _⟩
  split at h
  next hb =>
    obtain ⟨⟨said, left⟩, hsaid, h⟩ := bind_eq_ok.1 h
    cases h
    subst hb
    exact ⟨.string (chars_of_string hsaid), .string _⟩
  split at h
  next hb =>
    obtain ⟨n, rfl, hsign, hn, hconverts⟩ := unsigned_of_number h
    subst hb
    exact ⟨.negative hsign hn, .number hconverts⟩
  split at h
  next hb =>
    obtain ⟨n, rfl, hsign, hn, hconverts⟩ := unsigned_of_number h
    exact ⟨.positive hsign hn, .number hconverts⟩
  next => cases h

/-- A number begins with a digit. -/
theorem exists_digit_of_unsigned {n : Numeral} (h : Unsigned n text rest) :
    ∃ d others, text = d :: others ∧ isDigit d = true := by
  obtain ⟨⟨⟨hne, hdigits⟩, -⟩, -, -⟩ := h
  obtain ⟨d, whole, rfl⟩ := List.exists_cons_of_ne_nil hne
  exact ⟨d, _, rfl, hdigits d List.mem_cons_self⟩

/-- A digit is the mark of no other value. -/
theorem scalar_digit {b : UInt8} (hb : isDigit b = true) :
    scalar fuel b text = number false (b :: text) := by
  have hne {mark : UInt8} (hmark : isDigit mark = false) : b ≠ mark := by
    rintro rfl
    rw [hb] at hmark
    cases hmark
  unfold scalar
  rw [if_neg (hne rfl), if_neg (hne rfl), if_neg (hne rfl), if_neg (hne rfl),
    if_neg (hne rfl), if_pos hb]

/-- A scalar of the grammar is read. -/
theorem scalar_of_bounded {b : UInt8} {v : Json} {budget : Nat}
    (h : Bounded budget v (b :: text) rest) (hlist : b ≠ 0x5B)
    (hobject : b ≠ 0x7B) (hends : EndsNumber rest)
    (hfuel : text.length ≤ fuel) : scalar fuel b text = .ok (v, rest) := by
  obtain ⟨hvalue, hwithin⟩ := h
  generalize htext : b :: text = whole at hvalue
  cases hvalue with
  | null | true | false =>
      cases htext
      exact word_eq_ok.2 ⟨rfl, rfl⟩
  | string hsaid =>
      cases htext
      have hread := (string_eq_ok hfuel).2 hsaid
      unfold scalar
      simp only [hread, bind, Except.bind]
      rfl
  | array _ =>
      cases htext
      exact absurd rfl hlist
  | object _ =>
      cases htext
      exact absurd rfl hobject
  | negative hsign hn =>
      cases htext
      cases hwithin with
      | number hconverts =>
          have hread := number_of_unsigned hn hconverts hends
          rw [hsign] at hread
          exact hread
  | positive hsign hn =>
      subst htext
      obtain ⟨d, others, hd, hdigit⟩ := exists_digit_of_unsigned hn
      obtain ⟨rfl, rfl⟩ := List.cons.inj hd
      cases hwithin with
      | number hconverts =>
          have hread := number_of_unsigned hn hconverts hends
          rw [hsign] at hread
          rw [scalar_digit hdigit, hread]

/-- White space in front of a value is passed over. -/
theorem value_skipSpace {budget : Nat} :
    value fuel budget (skipSpace text) = value fuel budget text := by
  have hskip : skipSpace (skipSpace text) = skipSpace text :=
    (skipSpace_eq_of_space (space_skipSpace text)).symm
  cases budget <;> rw [value, value, hskip]

theorem value_list {budget : Nat} :
    value fuel (budget + 1) (0x5B :: text)
      = (items listBrackets (value fuel budget) fuel text
          >>= fun found => .ok (.array found.1, found.2)) := rfl

theorem value_members {budget : Nat} :
    value fuel (budget + 1) (0x7B :: text)
      = (items objectBrackets (member fuel (value fuel budget)) fuel text
          >>= fun found => .ok (.object found.1, found.2)) := rfl

/-- A value begins with a mark. -/
theorem begins_of_value {v : Json} (h : Value v text rest) :
    Begins listBrackets text := by
  have hdigit {d : UInt8} (hd : isDigit d = true) :
      isSpace d = false ∧ d ≠ listBrackets.close := by
    constructor
    · cases hspace : isSpace d with
      | false => rfl
      | true =>
          simp only [isSpace, Bool.or_eq_true, beq_iff_eq] at hspace
          rcases hspace with ((rfl | rfl) | rfl) | rfl <;> cases hd
    · rintro rfl
      cases hd
  cases h with
  | positive _ hn =>
      obtain ⟨d, others, rfl, hd⟩ := exists_digit_of_unsigned hn
      exact ⟨d, others, rfl, hdigit hd⟩
  | _ => exact ⟨_, _, rfl, rfl, by decide⟩

/-- A member is read if its value is. -/
theorem reads_member {value : Bytes → Except Fault (Json × Bytes)}
    {Val : Json → Bytes → Bytes → Prop}
    (h : Reads fuel listBrackets value Val)
    (hskip : ∀ text, value (skipSpace text) = value text) :
    Reads fuel objectBrackets (member fuel value) (Member Val) where
  sound := by
    intro m text rest hread
    cases text with
    | nil => cases hread
    | cons b text =>
        rw [member] at hread
        split at hread
        next => cases hread
        next hquote =>
          obtain rfl := not_not.1 hquote
          obtain ⟨⟨name, behind⟩, hname, hread⟩ := bind_eq_ok.1 hread
          simp only [] at hread
          split at hread
          next => cases hread
          next c front hskipped =>
            split at hread
            next => cases hread
            next hcolon =>
              obtain rfl := not_not.1 hcolon
              obtain ⟨⟨v, left⟩, hvalue, hread⟩ := bind_eq_ok.1 hread
              cases hread
              have hbehind := space_skipSpace behind
              rw [hskipped] at hbehind
              rw [skipSpace_cons rfl]
              exact .mk (chars_of_string hname) hbehind
                (space_skipSpace front) (h.sound hvalue)
  complete := by
    rintro _ _ rest ⟨hname, hcolon, hspace, hvalue⟩ hends hfuel
    have hafter := hname.length_lt
    have hbehind := hcolon.length_le
    have hfront := hspace.length_le
    simp only [List.length_cons] at hfuel hbehind
    have hname := (@string_eq_ok _ _ fuel _ (by omega)).2 hname
    have hread := h.complete hvalue hends (by omega)
    rw [← hskip, ← skipSpace_eq_of_space hspace, hskip] at hread
    rw [member, if_neg (by decide), hname]
    simp only [bind, Except.bind]
    rw [skipSpace_of_space hcolon rfl]
    simp only []
    rw [if_neg (by decide), hread]
  begins := by
    rintro _ _ _ ⟨⟩
    exact ⟨0x22, _, rfl, rfl, by decide⟩
  shorter hm := hm.length_lt h.shorter

theorem bounded_array {budget : Nat} {found : List Json} :
    Bounded (budget + 1) (.array found) (0x5B :: text) rest
      ↔ Items 0x5D (Bounded budget) found text rest := by
  unfold Bounded
  rw [items_and_iff]
  constructor
  · rintro ⟨hvalue, hwithin⟩
    cases hvalue with
    | array hitems =>
        cases hwithin with
        | array hall => exact ⟨hitems, hall⟩
  · rintro ⟨hitems, hall⟩
    exact ⟨.array hitems, .array hall⟩

theorem bounded_object {budget : Nat} {found : List (Bytes × Json)} :
    Bounded (budget + 1) (.object found) (0x7B :: text) rest
      ↔ Items 0x7D (Member (Bounded budget)) found text rest := by
  have hmember : Member (Bounded budget) = fun m t r =>
      Member Value m t r ∧ Within Numeral.Converts budget m.2 := by
    funext m t r
    exact propext member_and_iff
  rw [hmember, items_and_iff]
  constructor
  · rintro ⟨hvalue, hwithin⟩
    cases hvalue with
    | object hitems =>
        cases hwithin with
        | object hall => exact ⟨hitems, hall⟩
  · rintro ⟨hitems, hall⟩
    exact ⟨.object hitems, .object hall⟩

/-- What begins with an opening bracket is a list or an object, and needs
room. -/
theorem bounded_bracket {budget : Nat} {b : UInt8} {v : Json}
    (hb : b = 0x5B ∨ b = 0x7B) (h : Bounded budget v (b :: text) rest) :
    (∃ found, b = 0x5B ∧ v = .array found ∧ budget ≠ 0)
      ∨ ∃ found, b = 0x7B ∧ v = .object found ∧ budget ≠ 0 := by
  obtain ⟨hvalue, hwithin⟩ := h
  generalize htext : b :: text = whole at hvalue
  have hother {mark : UInt8} {others : Bytes} (h : b :: text = mark :: others)
      (hmark : ¬ (mark = 0x5B ∨ mark = 0x7B)) : False := by
    cases h
    exact hmark hb
  cases hvalue with
  | array _ =>
      cases htext
      cases hwithin
      exact .inl ⟨_, rfl, rfl, Nat.succ_ne_zero _⟩
  | object _ =>
      cases htext
      cases hwithin
      exact .inr ⟨_, rfl, rfl, Nat.succ_ne_zero _⟩
  | positive _ hn =>
      obtain ⟨d, others, rfl, hd⟩ := exists_digit_of_unsigned hn
      refine (hother htext ?_).elim
      rintro (rfl | rfl) <;> cases hd
  | _ => exact (hother htext (by decide)).elim

/-- It is enough that lists and objects are read as the grammar has them. -/
theorem reads_value_of_brackets {budget : Nat}
    (hsound : ∀ {b : UInt8} {v : Json} {text rest : Bytes},
      b = 0x5B ∨ b = 0x7B → value fuel budget (b :: text) = .ok (v, rest) →
        Bounded budget v (b :: text) rest)
    (hcomplete : ∀ {b : UInt8} {v : Json} {text rest : Bytes},
      b = 0x5B ∨ b = 0x7B → Bounded budget v (b :: text) rest →
        text.length ≤ fuel → value fuel budget (b :: text) = .ok (v, rest)) :
    Reads fuel listBrackets (value fuel budget) (Bounded budget) where
  sound := by
    intro v text rest hread
    rw [← value_skipSpace] at hread
    cases hskipped : skipSpace text with
    | nil =>
        rw [hskipped] at hread
        cases budget <;> cases hread
    | cons b behind =>
        rw [hskipped] at hread
        by_cases hb : b = 0x5B ∨ b = 0x7B
        · exact hsound hb hread
        · rw [not_or] at hb
          rw [value_scalar (isSpace_of_skipSpace hskipped) hb.1 hb.2] at hread
          exact bounded_of_scalar hread
  complete := by
    intro v text rest h hends hfuel
    obtain ⟨b, behind, rfl, hspace, -⟩ := begins_of_value h.1
    have hbehind : behind.length ≤ fuel := Nat.le_of_succ_le hfuel
    by_cases hb : b = 0x5B ∨ b = 0x7B
    · exact hcomplete hb h hbehind
    · rw [not_or] at hb
      rw [value_scalar hspace hb.1 hb.2]
      exact scalar_of_bounded h hb.1 hb.2 hends hbehind
  begins h := begins_of_value h.1
  shorter h := h.1.length_lt h.2

/-- Values are read as the grammar has them, as far as there is room. -/
theorem reads_value (fuel budget : Nat) :
    Reads fuel listBrackets (value fuel budget) (Bounded budget) := by
  induction budget with
  | zero =>
      refine reads_value_of_brackets ?_ ?_
      · rintro _ _ _ _ (rfl | rfl) hread <;> cases hread
      · intro b v text rest hb h _
        rcases bounded_bracket hb h with ⟨-, -, -, hroom⟩ | ⟨-, -, -, hroom⟩
        · exact absurd rfl hroom
        · exact absurd rfl hroom
  | succ budget ih =>
      have hmember := reads_member ih fun _ => value_skipSpace
      refine reads_value_of_brackets ?_ ?_
      · rintro _ _ text rest (rfl | rfl) hread
        · rw [value_list] at hread
          obtain ⟨⟨found, left⟩, hfound, hread⟩ := bind_eq_ok.1 hread
          cases hread
          exact bounded_array.2 (items_of_read ih hfound)
        · rw [value_members] at hread
          obtain ⟨⟨found, left⟩, hfound, hread⟩ := bind_eq_ok.1 hread
          cases hread
          exact bounded_object.2 (items_of_read hmember hfound)
      · intro b v text rest hb h hfuel
        rcases bounded_bracket hb h with
          ⟨found, rfl, rfl, -⟩ | ⟨found, rfl, rfl, -⟩
        · rw [value_list, read_of_items ih listBrackets_close
            (bounded_array.1 h) hfuel]
          rfl
        · rw [value_members, read_of_items hmember objectBrackets_close
            (bounded_object.1 h) hfuel]
          rfl

/-- A value is what it is written as, if there is room for it. -/
theorem bounded_render {budget : Nat} {v : Json} (h : Plain budget v) :
    Bounded budget v (render v ++ rest) rest := by
  have hread := value_render h (Nat.le_refl _) rest
  have hsound := (reads_value _ budget).sound hread
  obtain ⟨b, others, hwritten, hspace, -⟩ := render_begins h
  rw [hwritten, List.cons_append, skipSpace_cons hspace] at hsound
  rw [hwritten, List.cons_append]
  exact hsound

end Toolrun.Json.Reader
