/-
How long a tool may run can be said in the environment and on the command line,
and the two understand the same texts. A text is understood just if it spells a
number that fits in 64 bits (`Numeral.read_eq_ok_iff`); all that the
environment does beyond that is to take away the white space around it, and to
pass over a text that is nothing else (`said_cases`).

A time limit that is not understood ends the reading of the environment, but
tool and language come before it and are taken over all the same (`overlays`).
On the command line it ends the reading, wherever it stands
(`CommandLine.Room.read_words_eq_ok`).
-/
import Toolrun.Proofs.Blank
import Toolrun.Proofs.CommandLine.Room
import Toolrun.Proofs.Layers

namespace Toolrun

open Numeral (Spells)

-- ============================================================= variables

namespace Variables

variable {env : Variables} {name value : String}

/-- A variable has a value that is text and not all white space. -/
def Says (env : Variables) (name value : String) : Prop :=
  env.text? name = some value ∧ ¬Text.AllBlank value.toList

theorem nonBlank?_eq_some :
    env.nonBlank? name = some value ↔ env.Says name value := by
  unfold nonBlank? Says Text.isAllBlank Text.AllBlank
  rw [Option.filter_eq_some_iff, Bool.not_eq_true', ← Bool.not_eq_true,
    List.all_eq_true]

theorem nonBlank?_eq_none :
    env.nonBlank? name = none ↔ ∀ value, ¬env.Says name value := by
  simp only [Option.eq_none_iff_forall_ne_some, Ne, nonBlank?_eq_some]

end Variables

namespace Settings

variable {env : Variables} {v : String}

-- ============================================================ environment

/-- A text spells a number of 64 bits. -/
def IsLimit (text : String) : Prop :=
  ∃ value, Spells text.toList value ∧ value < 2 ^ 64

/-- What the environment says about the time limit is that limit, or it is
refused. -/
theorem said_cases (hsaid : env.Says timeoutVariable v) :
    (∃ n : UInt64, Spells (Text.trim v).toList n.toNat
        ∧ env.timeout? = some n ∧ badTimeout? env = none)
      ∨ ¬IsLimit (Text.trim v) ∧ env.timeout? = none
        ∧ ∃ fault, badTimeout? env = some fault := by
  unfold Variables.timeout? badTimeout?
  rw [Variables.nonBlank?_eq_some.2 hsaid, Option.bind_some,
    Option.bind_some]
  cases hread : Numeral.read (Text.trim v) with
  | ok n => exact .inl ⟨n, Numeral.read_eq_ok_iff.1 hread, rfl, rfl⟩
  | error reason =>
      exact .inr ⟨Numeral.read_eq_error_iff.1 ⟨reason, hread⟩, rfl,
        ⟨v, reason⟩, rfl⟩

/-- If it says nothing there is nothing to refuse. -/
theorem timeout?_of_unsaid (h : ∀ v, ¬env.Says timeoutVariable v) :
    env.timeout? = none ∧ badTimeout? env = none := by
  unfold Variables.timeout? badTimeout?
  rw [Variables.nonBlank?_eq_none.2 h]
  exact ⟨rfl, rfl⟩

/-- A text after a variable was asked for it: what the variable says, or else
what it was before. -/
structure Takes (env : Variables) (name old new : String) : Prop where
  said : ∀ v, env.Says name v → new = v
  unsaid : (∀ v, ¬env.Says name v) → new = old

theorem takes_getD (env : Variables) (name old : String) :
    Takes env name old ((env.nonBlank? name).getD old) where
  said v hv := by rw [Variables.nonBlank?_eq_some.2 hv, Option.getD_some]
  unsaid h := by rw [Variables.nonBlank?_eq_none.2 h, Option.getD_none]

/-- What the environment makes of settings. It fails just by a time limit that
spells no number of 64 bits. If it does not, the time limit is the number that
is spelled, or what it was if nothing is said; if it does, the time limit is
what it was. Either way tool and language are taken over, and nothing else
changes. -/
structure Overlays (env : Variables) (s : Settings)
    (after : Layered TimeoutFault) : Prop where
  fails_iff : (∃ fault, after.fault? = some fault)
    ↔ ∃ v, env.Says timeoutVariable v ∧ ¬IsLimit (Text.trim v)
  number : after.fault? = none → ∀ v value, env.Says timeoutVariable v →
    Spells (Text.trim v).toList value →
    after.settings.control.timeoutMs.toNat = value
  unsaid : (∀ v, ¬env.Says timeoutVariable v) →
    after.settings.control.timeoutMs = s.control.timeoutMs
  failed : ∀ fault, after.fault? = some fault →
    after.settings.control.timeoutMs = s.control.timeoutMs
  toolPath : Takes env toolVariable s.runner.toolPath
    after.settings.runner.toolPath
  language : Takes env languageVariable s.runner.language
    after.settings.runner.language
  others : after.settings =
    { runner := after.settings.runner
      control := { s.control with
        timeoutMs := after.settings.control.timeoutMs }
      logging := s.logging }

theorem timeoutMs_overlaid (env : Variables) (s : Settings) :
    (s.overlaid env).control.timeoutMs
      = env.timeout?.getD s.control.timeoutMs := rfl

theorem overlays (env : Variables) (s : Settings) :
    Overlays env s (s.withVariables env) := by
  rw [withVariables_eq]
  have hfails : (∃ fault, badTimeout? env = some fault)
      ↔ ∃ v, env.Says timeoutVariable v ∧ ¬IsLimit (Text.trim v) := by
    constructor
    · rintro ⟨fault, hfault⟩
      by_cases hunsaid : ∀ v, ¬env.Says timeoutVariable v
      · rw [(timeout?_of_unsaid hunsaid).2] at hfault
        cases hfault
      · obtain ⟨v, hsaid⟩ := not_forall_not.1 hunsaid
        rcases said_cases hsaid with ⟨n, -, -, hnone⟩ | ⟨hlimit, -, -⟩
        · rw [hnone] at hfault
          cases hfault
        · exact ⟨v, hsaid, hlimit⟩
    · rintro ⟨v, hsaid, hlimit⟩
      rcases said_cases hsaid with ⟨n, hspells, -, -⟩ | ⟨-, -, hfault⟩
      · exact absurd ⟨n.toNat, hspells, n.toNat_lt⟩ hlimit
      · exact hfault
  constructor
  case fails_iff => exact hfails
  case number =>
    intro hnone v value hsaid hspells
    rcases said_cases hsaid with ⟨n, hnumber, hn, -⟩ | ⟨-, -, fault, hfault⟩
    · rw [timeoutMs_overlaid, hn, Option.getD_some]
      exact hnumber.unique hspells
    · rw [hfault] at hnone
      cases hnone
  case unsaid =>
    intro hunsaid
    rw [timeoutMs_overlaid, (timeout?_of_unsaid hunsaid).1, Option.getD_none]
  case failed =>
    intro fault hfault
    obtain ⟨v, hsaid, hlimit⟩ := hfails.1 ⟨fault, hfault⟩
    rcases said_cases hsaid with ⟨n, hspells, -, -⟩ | ⟨-, hnone, -⟩
    · exact absurd ⟨n.toNat, hspells, n.toNat_lt⟩ hlimit
    · rw [timeoutMs_overlaid, hnone, Option.getD_none]
  case toolPath => exact takes_getD env toolVariable s.runner.toolPath
  case language => exact takes_getD env languageVariable s.runner.language
  case others => rfl

end Settings

-- =========================================================== command line

namespace CommandLine.Room

variable {room : Room .timeoutMs} {text : String} {n : UInt64}

/-- The command line with a time limit. -/
def lineWith (room : Room .timeoutMs) (ms : UInt64) : CommandLine where
  configPath := (valuesOf .config room.items).head?
  command := .run { requestOf room.items with timeoutMs := some ms }

theorem number?_encode :
    number? (Utf8.encode text) = some n ↔ Spells text.toList n.toNat := by
  unfold number?
  rw [Utf8.decode?_encode, Option.bind_some, ← Numeral.read_eq_ok_iff]
  cases Numeral.read text <;> simp [Except.toOption]

theorem lineOf_timeout {value : Bytes} (h : number? value = some n) :
    lineOf (room.items ++ [.option .timeoutMs .attached value])
      = room.lineWith n := by
  have hunsaid : valuesOf .timeoutMs room.items = [] := room.unsaid
  simp [lineOf, lineWith, requestOf, text?, valuesOf_append_option,
    pathsOf_append_option, hunsaid, h]

/-- A time limit is read where there is room for it just if it is a number,
and as that number. -/
theorem read_words_eq_ok {line : CommandLine} :
    read (room.words (Utf8.encode text)) = .ok line
      ↔ ∃ n : UInt64, Spells text.toList n.toNat ∧ line = room.lineWith n := by
  constructor
  · intro hread
    have haccepts := room.read_iff.1 ⟨line, hread⟩
    obtain ⟨n, hn⟩ := Option.isSome_iff_exists.1 haccepts
    rw [room.read_words haccepts, lineOf_timeout hn] at hread
    injection hread with hline
    exact ⟨n, number?_encode.1 hn, hline.symm⟩
  · rintro ⟨n, hspells, rfl⟩
    have hn := number?_encode.2 hspells
    have haccepts : Opt.timeoutMs.Accepts (Utf8.encode text) :=
      Option.isSome_of_eq_some hn
    rw [room.read_words haccepts, lineOf_timeout hn]

end CommandLine.Room

-- ============================================================== the result

namespace Settings

open CommandLine (Room)

/-- **A time limit is read exactly, wherever it is said.** In the environment
a text that is not all white space has to spell a number of 64 bits, with white
space around it or not; then the time limit is that number, and else only tool
and language are taken over. On the command line, at any place where there is
room for it, the same texts are understood as the same numbers, if they have no
white space around them. -/
theorem timeout_read_exactly :
    (∀ (env : Variables) (s : Settings), Overlays env s (s.withVariables env))
      ∧ ∀ (env : Variables) (s : Settings) (text : String), text ≠ "" →
          Text.IsTrimmed text.toList →
          env.text? timeoutVariable = some text →
          ∀ (room : Room .timeoutMs) (line : CommandLine),
            CommandLine.read (room.words (Utf8.encode text)) = .ok line
              ↔ (s.withVariables env).fault? = none
                ∧ line = room.lineWith
                    (s.withVariables env).settings.control.timeoutMs := by
  refine ⟨overlays, ?_⟩
  intro env s text hne htrimmed htext room line
  have htrim : Text.trim text = text := by
    unfold Text.trim
    rw [Text.trimChars_eq_self htrimmed, String.ofList_toList]
  have hsaid : env.Says timeoutVariable text := by
    refine ⟨htext, fun hblank => hne ?_⟩
    rw [← String.toList_inj, ← Text.trimChars_eq_self htrimmed]
    exact Text.trimChars_eq_nil_iff.2 hblank
  have hcases := said_cases hsaid
  rw [htrim] at hcases
  rw [withVariables_eq, Room.read_words_eq_ok, timeoutMs_overlaid]
  rcases hcases with ⟨n, hspells, hn, hnone⟩ | ⟨hlimit, -, fault, hfault⟩
  · rw [hn, Option.getD_some]
    constructor
    · rintro ⟨n', hspells', rfl⟩
      rw [UInt64.toNat_inj.1 (hspells.unique hspells')]
      exact ⟨hnone, rfl⟩
    · rintro ⟨-, rfl⟩
      exact ⟨n, hspells, rfl⟩
  · constructor
    · rintro ⟨n, hspells, -⟩
      exact absurd ⟨n.toNat, hspells, n.toNat_lt⟩ hlimit
    · rintro ⟨hnone, -⟩
      rw [hfault] at hnone
      cases hnone

/-- The largest number, with a sign and zeros in front of it, and the next one,
which is refused in both places while the tool is taken. -/
theorem timeout_read_exactly_largest :
    let env (text : String) : Variables := fun name =>
      if name = toolVariable then some (Utf8.encode "t")
      else if name = timeoutVariable then some (Utf8.encode text)
      else none
    let words (text : String) : List Bytes :=
      ["run", "--env=A=1", "--timeout-ms=" ++ text, "x"].map Utf8.encode
    let after (text : String) := default.withVariables (env text)
    let largest : String := "+0018446744073709551615"
    let next : String := "18446744073709551616"
    (after largest).settings.control.timeoutMs = 18446744073709551615
      ∧ CommandLine.read (words largest) = .ok ⟨none, .run
          { timeoutMs := some 18446744073709551615
            env := ["A=1"]
            files := [Utf8.encode "x"] }⟩
      ∧ (after next).settings.control.timeoutMs = 0
      ∧ (after next).settings.runner.toolPath = "t"
      ∧ ∀ line, CommandLine.read (words next) ≠ .ok line := by
  intro env words after largest next
  let room : Room .timeoutMs :=
    { front := []
      before := [.option .env .attached (Utf8.encode "A=1")]
      behind := [.path (Utf8.encode "x")]
      front_config := nofun
      readable :=
        { valid := List.forall_mem_cons.2 ⟨.attached rfl,
            List.forall_mem_singleton.2 (.path (by decide) (.inr (by decide)))⟩
          once := fun opt => by cases opt <;> decide }
      unsaid := by decide }
  have hlargest : (after largest).fault? = none := by decide +kernel
  have hnext : (after next).fault? = some ⟨next, .tooLarge⟩ := by
    decide +kernel
  have hwords : words largest = room.words (Utf8.encode largest)
      ∧ words next = room.words (Utf8.encode next) := by
    decide +kernel
  obtain ⟨hoverlays, hagree⟩ := timeout_read_exactly
  have hspells : Spells (Text.trim largest).toList 18446744073709551615 := by
    rw [show (Text.trim largest).toList = '+' :: "0018446744073709551615".toList
      from by decide +kernel]
    exact .signed (by decide) (List.all_eq_true.1 (by decide +kernel))
  have hms : (after largest).settings.control.timeoutMs
      = 18446744073709551615 :=
    UInt64.toNat_inj.1 ((hoverlays (env largest) default).number hlargest
      largest _ (Variables.nonBlank?_eq_some.1 (by decide +kernel)) hspells)
  refine ⟨hms, ?_, ?_, ?_, ?_⟩
  · have hread := (hagree (env largest) default largest (by decide)
      (by decide +kernel) (by decide +kernel) room _).2 ⟨hlargest, rfl⟩
    rw [hms] at hread
    rw [hwords.1, hread]
    rfl
  · exact (hoverlays (env next) default).failed _ hnext
  · exact (hoverlays (env next) default).toolPath.said "t"
      (Variables.nonBlank?_eq_some.1 (by decide +kernel))
  · intro line hread
    rw [hwords.2] at hread
    have hnone := ((hagree (env next) default next (by decide)
      (by decide +kernel) (by decide +kernel) room line).1 hread).1
    exact absurd (hnone.symm.trans hnext) nofun

end Settings

end Toolrun
