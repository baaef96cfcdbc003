/-
One option more on a command line that asks for a run. Wherever among its
items there is room for an option, in front of them, between them or behind
them, a value in the same word decides alone whether the line can still be read
(`Room.read_iff`); and then it says what it said before, and the option
(`Room.read_words`).

Items that can be read are read together (`Arrangement.read_words`). So what is
left is a value that the option cannot have, and of that no line is read
whatever stands behind it: what stands in front leads to the option
(`readFrom_items`, `readRun_items`), and there the value has to be stored
(`Progress.accepts_of_store`).
-/
import Toolrun.Proofs.CommandLine.Placement

namespace Toolrun.CommandLine

open Fallible (bind_eq_ok bind_ok_eq_ok)

variable {opt : Opt} {value : Bytes}

namespace Progress

variable {p q : Progress}

/-- A value that is stored is one that the option can have. -/
theorem accepts_of_store (h : p.store opt value = .ok q) :
    opt.Accepts value := by
  unfold store at h
  cases opt with
  | config =>
      obtain ⟨path, hpath, -⟩ := bind_ok_eq_ok.1 h
      rintro rfl
      cases hpath
  | tool | language | filesFrom | cwd | env =>
      obtain ⟨s, hs, -⟩ := bind_ok_eq_ok.1 h
      exact Option.isSome_of_eq_some (textValue_eq_ok.1 hs)
  | timeoutMs | captureBytes =>
      obtain ⟨n, hn, -⟩ := bind_ok_eq_ok.1 h
      exact Option.isSome_of_eq_some (numberValue_eq_ok.1 hn)
  | format =>
      obtain ⟨f, hf, -⟩ := bind_ok_eq_ok.1 h
      exact Option.isSome_of_eq_some (formatValue_eq_ok.1 hf)

theorem accepts_of_begin (h : p.begin opt (some value) = .ok q) :
    opt.Accepts value := by
  obtain ⟨settled, -, htake⟩ := bind_eq_ok.1 h
  unfold take at htake
  simp only at htake
  split at htake
  next => cases htake
  next => exact accepts_of_store htake

end Progress

/-- Room for an option on a command line: items in front of the word `run`, and
behind it in front of the option and behind that. They can be read without the
option, and say nothing about it. -/
structure Room (opt : Opt) where
  front : List Item
  before : List Item
  behind : List Item
  front_config : ∀ item ∈ front, item.IsConfig
  readable : Readable (front ++ (before ++ behind))
  unsaid : valuesOf opt (front ++ (before ++ behind)) = []

namespace Room

/-- The items without the option. -/
def items (room : Room opt) : List Item :=
  room.front ++ (room.before ++ room.behind)

/-- The words of the command line with the option. -/
def words (room : Room opt) (value : Bytes) : List Bytes :=
  room.front.flatMap Item.words ++ runWord ::
    (room.before.flatMap Item.words ++ opt.wordWith value ::
      room.behind.flatMap Item.words)

/-- All items, with the option among them. -/
def arrangement (room : Room opt) (value : Bytes) : Arrangement where
  front := room.front
  behind := room.before ++ .option opt .attached value :: room.behind
  front_config := room.front_config

theorem words_arrangement (room : Room opt) (value : Bytes) :
    (room.arrangement value).words = room.words value := by
  unfold Arrangement.words arrangement words
  rw [List.flatMap_append, List.flatMap_cons]
  rfl

theorem perm_all (room : Room opt) (value : Bytes) :
    (room.items ++ [Item.option opt .attached value]).Perm
      (room.arrangement value).all := by
  unfold items arrangement Arrangement.all
  rw [List.append_assoc]
  exact .append_left _
    ((List.perm_append_singleton _ _).trans List.perm_middle.symm)

theorem readable_all (room : Room opt) (haccepts : opt.Accepts value) :
    Readable (room.arrangement value).all := by
  refine Readable.perm ⟨?_, ?_⟩ (room.perm_all value)
  · intro item hitem
    rcases List.mem_append.1 hitem with hitem | hitem
    · exact room.readable.valid item hitem
    · rw [List.mem_singleton.1 hitem]
      exact .attached haccepts
  · intro other hother
    have hunsaid : valuesOf opt room.items = [] := room.unsaid
    rw [valuesOf_append_option]
    split
    next hsame =>
      rw [← hsame, hunsaid]
      exact Nat.le_refl 1
    next =>
      rw [List.append_nil]
      exact room.readable.once other hother

theorem lineOf_all (room : Room opt) (value : Bytes) :
    lineOf (room.arrangement value).all
      = lineOf (room.items ++ [.option opt .attached value]) := by
  have hitem (other : Opt) :
      valuesOf other (.option opt .attached value :: room.behind)
        = (if opt = other then [value] else [])
          ++ valuesOf other room.behind := by
    rw [← valuesOf_option, ← valuesOf_append, List.singleton_append]
  refine lineOf_congr (fun other => ?_) ?_
  · unfold arrangement Arrangement.all
    rw [valuesOf_append, valuesOf_append, hitem, valuesOf_append_option]
    unfold items
    rw [valuesOf_append, valuesOf_append]
    split
    next hsame =>
      subst hsame
      have hunsaid := room.unsaid
      rw [valuesOf_append, valuesOf_append, List.append_eq_nil_iff,
        List.append_eq_nil_iff] at hunsaid
      obtain ⟨hfront, hbefore, hbehind⟩ := hunsaid
      rw [hfront, hbefore, hbehind]
      rfl
    next => rw [List.nil_append, List.append_nil]
  · rw [pathsOf_append_option]
    unfold arrangement Arrangement.all items
    rw [pathsOf_append, pathsOf_append, pathsOf_append, pathsOf_append]
    rfl

/-- With a value that the option can have, the line says what it said before,
and the option. -/
theorem read_words (room : Room opt) (haccepts : opt.Accepts value) :
    read (room.words value)
      = .ok (lineOf (room.items ++ [.option opt .attached value])) := by
  rw [← words_arrangement, Arrangement.read_words (room.readable_all haccepts),
    lineOf_all]

/-- The line is read just if the option can have the value. -/
theorem read_iff (room : Room opt) :
    (∃ line, read (room.words value) = .ok line) ↔ opt.Accepts value := by
  constructor
  · rintro ⟨line, hread⟩
    obtain ⟨outer, houter, hfront⟩ := readFrom_items
      Progress.says_nothing.tells room.front_config room.readable.left
    obtain ⟨p, -, hbefore⟩ := readRun_items Progress.says_nothing.tells
      room.readable.right.left
    have hread' : readFrom outer (runWord :: _) = .ok line :=
      (hfront _).symm.trans hread
    rw [readFrom_runWord houter] at hread'
    obtain ⟨inner, hinner, -⟩ := bind_eq_ok.1 hread'
    rw [hbefore, readRun, Word.of_wordWith] at hinner
    simp only [named?_name] at hinner
    obtain ⟨q, hbegin, -⟩ := bind_eq_ok.1 hinner
    exact Progress.accepts_of_begin hbegin
  · intro haccepts
    exact ⟨_, room.read_words haccepts⟩

end Room

end Toolrun.CommandLine
