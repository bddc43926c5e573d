import Mathlib.Algebra.GroupWithZero.Nat
import VmFleet.Text.Duration

/-!
# Durations read back

The text of a duration lists what a clock shows: hours, minutes, seconds and milliseconds, without
those that are zero. Nothing is lost in it. Whoever reads the counts and knows what their units stand
for adds them up to the milliseconds that were written.
-/

set_option autoImplicit false

namespace VmFleet.Text.Duration

/-! ## Clocks -/

/-- Only the hours can be any number. -/
structure Clock where
  hours : Nat
  minutes : Nat
  seconds : Nat
  millis : Nat
  minutes_lt : minutes < 60
  seconds_lt : seconds < 60
  millis_lt : millis < 1000

/-- A count with its unit, in the singular exactly for one. -/
def phrase (count : Nat) (unit : String) : String :=
  toString count ++ " " ++ if count = 1 then unit else unit ++ "s"

namespace Clock

def total (c : Clock) : Nat := c.hours * 3600000 + c.minutes * 60000 + c.seconds * 1000 + c.millis

def shown (c : Clock) : List (Nat × String) :=
  [(c.hours, "hour"), (c.minutes, "minute"), (c.seconds, "second"), (c.millis, "millisecond")]

/-- The counts that are not zero. -/
def parts (c : Clock) : List (Nat × String) := c.shown.filter fun part => 0 < part.1

def text (c : Clock) : String :=
  if c.total = 0 then "0 milliseconds"
  else ", ".intercalate (c.parts.map fun part => phrase part.1 part.2)

def of (ms : Nat) : Clock where
  hours := ms / 3600000
  minutes := ms % 3600000 / 60000
  seconds := ms % 60000 / 1000
  millis := ms % 1000
  minutes_lt := by omega
  seconds_lt := by omega
  millis_lt := by omega

theorem total_of (ms : Nat) : (of ms).total = ms := by
  simp only [total, of]
  omega

theorem parts_eq_nil_iff (c : Clock) : c.parts = [] ↔ c.total = 0 := by
  simp only [parts, shown, total, List.filter_eq_nil_iff, List.forall_mem_cons, decide_eq_true_eq,
    List.not_mem_nil, false_implies, implies_true, and_true]
  omega

end Clock

theorem counted_eq_phrase (count : Nat) (unit : String) : counted count unit = phrase count unit := by
  unfold counted phrase
  split
  · rfl
  · exact String.append_assoc

/-- What is written is what a clock shows. -/
theorem render_eq (ms : Nat) : render ms = (Clock.of ms).text := by
  have hparts : (components ms).filter (fun part => 0 < part.1) = (Clock.of ms).parts := rfl
  unfold render Clock.text
  rw [hparts]
  simp only [← Clock.parts_eq_nil_iff, ← counted_eq_phrase]
  split
  · rename_i hnil
    rw [if_pos hnil]
    decide +kernel
  · rename_i hsome
    rw [if_neg hsome]

/-! ## Reading -/

def unitMillis? : String → Option Nat
  | "hour" | "hours" => some 3600000
  | "minute" | "minutes" => some 60000
  | "second" | "seconds" => some 1000
  | "millisecond" | "milliseconds" => some 1
  | _ => none

/-- Digits, a blank and a unit; blanks in front are skipped. -/
def readPart? (cs : List Char) : Option Nat :=
  let cs := cs.dropWhile (· = ' ')
  match cs.dropWhile Char.isDigit with
  | ' ' :: unit => (unitMillis? (String.ofList unit)).map fun millis =>
      Nat.ofDigitChars 10 (cs.takeWhile Char.isDigit) 0 * millis
  | _ => none

/-- Parts are set apart by commas, and what they stand for adds up. -/
def read? (text : String) : Option Nat :=
  ((text.toList.splitOn ',').mapM readPart?).map List.sum

/-- The unit reads alike in the singular and in the plural. -/
def IsUnit (unit : String) (millis : Nat) : Prop :=
  unitMillis? unit = some millis ∧ unitMillis? (unit ++ "s") = some millis ∧
    ',' ∉ unit.toList

theorem toList_phrase (count : Nat) (unit : String) :
    (phrase count unit).toList =
      Nat.toDigits 10 count ++ ' ' :: (if count = 1 then unit else unit ++ "s").toList := by
  simp [phrase, Nat.toString_eq_repr, Nat.toList_repr]

theorem digits_isDigit (count : Nat) : ∀ c ∈ Nat.toDigits 10 count, c.isDigit = true :=
  fun _ => Nat.isDigit_of_mem_toDigits (by decide) (by decide)

theorem dropWhile_blank_digits (count : Nat) (rest : List Char) :
    (Nat.toDigits 10 count ++ rest).dropWhile (· = ' ') = Nat.toDigits 10 count ++ rest := by
  cases hdigits : Nat.toDigits 10 count with
  | nil => exact absurd hdigits Nat.toDigits_ne_nil
  | cons d ds =>
    have hd : d.isDigit = true := digits_isDigit count d (by simp [hdigits])
    have hblank : d ≠ ' ' := by
      rintro rfl
      cases hd
    exact List.dropWhile_cons_of_neg (by simpa using hblank)

theorem readPart_phrase (count millis : Nat) (unit : String) (h : IsUnit unit millis) :
    readPart? (phrase count unit).toList = some (count * millis) := by
  have hunit : unitMillis? (if count = 1 then unit else unit ++ "s") = some millis := by
    split
    · exact h.1
    · exact h.2.1
  rw [toList_phrase]
  unfold readPart?
  simp only [dropWhile_blank_digits, List.dropWhile_append_of_pos (digits_isDigit count),
    List.takeWhile_append_of_pos (digits_isDigit count)]
  simp [hunit, Nat.ofDigitChars_toDigits]

theorem readPart_blank (cs : List Char) : readPart? (' ' :: cs) = readPart? cs := by
  unfold readPart?
  rw [List.dropWhile_cons_of_pos (by decide)]

theorem comma_not_mem_phrase (count millis : Nat) (unit : String) (h : IsUnit unit millis) :
    ',' ∉ (phrase count unit).toList := by
  rw [toList_phrase]
  intro hmem
  rcases List.mem_append.mp hmem with hmem | hmem
  · cases digits_isDigit count ',' hmem
  · split at hmem <;> simp [h.2.2] at hmem

def millisOf (unit : String) : Nat := (unitMillis? unit).getD 0

/-- After a comma the next part has a blank in front. -/
theorem intercalate_pair (a b : Char) (piece : List Char) (pieces : List (List Char)) :
    [a, b].intercalate (piece :: pieces) = [a].intercalate (piece :: pieces.map (b :: ·)) := by
  induction pieces generalizing piece with
  | nil => rfl
  | cons next pieces ih =>
    rw [List.intercalate_cons_cons, ih, List.map_cons, List.intercalate_cons_cons]
    cases pieces <;> simp [List.intercalate_cons_cons]

theorem mapM_blank (pieces : List (List Char)) :
    (pieces.map (' ' :: ·)).mapM readPart? = pieces.mapM readPart? := by
  rw [List.mapM_map]
  exact congrArg (pieces.mapM ·) (funext readPart_blank)

/-- Splitting at the commas gives the pieces back, up to the blanks. -/
theorem mapM_splitOn (piece : List Char) (pieces : List (List Char))
    (h : ∀ p ∈ piece :: pieces, ',' ∉ p) :
    (([',', ' '].intercalate (piece :: pieces)).splitOn ',').mapM readPart? =
      (piece :: pieces).mapM readPart? := by
  have hcommas : ∀ p ∈ piece :: pieces.map (' ' :: ·), ',' ∉ p := by
    obtain ⟨hpiece, hpieces⟩ := List.forall_mem_cons.mp h
    refine List.forall_mem_cons.mpr ⟨hpiece, fun p hp => ?_⟩
    obtain ⟨q, hq, rfl⟩ := List.mem_map.mp hp
    simpa using hpieces q hq
  rw [intercalate_pair, List.splitOn_intercalate _ hcommas (List.cons_ne_nil _ _),
    List.mapM_cons, mapM_blank, List.mapM_cons]

theorem mapM_readPart (parts : List (Nat × String))
    (h : ∀ part ∈ parts, IsUnit part.2 (millisOf part.2)) :
    (parts.map fun part => (phrase part.1 part.2).toList).mapM readPart? =
      some (parts.map fun part => part.1 * millisOf part.2) := by
  induction parts with
  | nil => rfl
  | cons part parts ih =>
    obtain ⟨hpart, hparts⟩ := List.forall_mem_cons.mp h
    rw [List.map_cons, List.mapM_cons, readPart_phrase _ _ _ hpart, ih hparts]
    rfl

/-- Any list of parts with units that are known reads as what they stand for together. -/
theorem read_parts (parts : List (Nat × String)) (hsome : parts ≠ [])
    (h : ∀ part ∈ parts, IsUnit part.2 (millisOf part.2)) :
    read? (", ".intercalate (parts.map fun part => phrase part.1 part.2)) =
      some (parts.map fun part => part.1 * millisOf part.2).sum := by
  have hcommas : ∀ piece ∈ parts.map fun part => (phrase part.1 part.2).toList, ',' ∉ piece := by
    intro piece hpiece
    obtain ⟨part, hpart, rfl⟩ := List.mem_map.mp hpiece
    exact comma_not_mem_phrase _ _ _ (h part hpart)
  have htext : (", ".intercalate (parts.map fun part => phrase part.1 part.2)).toList =
      [',', ' '].intercalate (parts.map fun part => (phrase part.1 part.2).toList) := by
    rw [String.toList_intercalate, List.map_map]
    rfl
  have hread := mapM_readPart parts h
  obtain ⟨piece, pieces, hpieces⟩ := List.exists_cons_of_ne_nil
    (show (parts.map fun part => (phrase part.1 part.2).toList) ≠ [] by simpa using hsome)
  rw [hpieces] at hcommas htext hread
  rw [read?, htext, mapM_splitOn piece pieces hcommas, hread, Option.map_some]

/-- Parts that are left out because they are zero are not missed. -/
theorem sum_filter (weight : String → Nat) (parts : List (Nat × String)) :
    ((parts.filter fun part => 0 < part.1).map fun part => part.1 * weight part.2).sum =
      (parts.map fun part => part.1 * weight part.2).sum := by
  induction parts with
  | nil => rfl
  | cons part parts ih =>
    rw [List.filter_cons]
    split
    · simp only [List.map_cons, List.sum_cons, ih]
    · rename_i hzero
      have hnone : part.1 = 0 := by simpa using hzero
      simp only [List.map_cons, List.sum_cons, ih, hnone, Nat.zero_mul, Nat.zero_add]

theorem shown_isUnit (c : Clock) : ∀ part ∈ c.shown, IsUnit part.2 (millisOf part.2) := by
  simp only [Clock.shown, List.forall_mem_cons, IsUnit]
  refine ⟨by decide,by decide,by decide,by decide,by simp⟩

/-- The text of any clock reads as its total. -/
theorem read_text (c : Clock) : read? c.text = some c.total := by
  unfold Clock.text
  split
  · rename_i hzero
    rw [hzero]
    decide +kernel
  · rename_i hsome
    have hparts : c.parts ≠ [] := fun hnil => hsome (c.parts_eq_nil_iff.mp hnil)
    have hunits : ∀ part ∈ c.parts, IsUnit part.2 (millisOf part.2) :=
      fun part hpart => shown_isUnit c part (List.mem_filter.mp hpart).1
    have htotal : (c.shown.map fun part => part.1 * millisOf part.2).sum = c.total := by
      simp [Clock.shown, Clock.total, millisOf, unitMillis?, Nat.add_assoc]
    rw [read_parts _ hparts hunits, Clock.parts, sum_filter, htotal]

theorem read_render (ms : Nat) : read? (render ms) = some ms := by
  rw [render_eq, read_text, Clock.total_of]

/-! ## Main statement -/

/-- As long as its milliseconds fit into 64 bits, a duration is written as what a clock shows after
so many whole milliseconds, and the text reads as their number. So two such durations are written
alike exactly if they agree in whole milliseconds. -/
theorem text_tells_whole_millis (seconds nanos : Nat)
    (h : seconds * 1000 + nanos / 1000000 < 2 ^ 64) :
    (∃ c : Clock, c.total = seconds * 1000 + nanos / 1000000 ∧
      render (wholeMillis seconds nanos) = c.text) ∧
    read? (render (wholeMillis seconds nanos)) = some (seconds * 1000 + nanos / 1000000) ∧
    ∀ seconds' nanos', seconds' * 1000 + nanos' / 1000000 < 2 ^ 64 →
      (render (wholeMillis seconds' nanos') = render (wholeMillis seconds nanos) ↔
        seconds' * 1000 + nanos' / 1000000 = seconds * 1000 + nanos / 1000000) := by
  have hwhole : ∀ s n, s * 1000 + n / 1000000 < 2 ^ 64 → wholeMillis s n = s * 1000 + n / 1000000 :=
    fun s n hfits => Nat.mod_eq_of_lt hfits
  rw [hwhole seconds nanos h]
  refine ⟨⟨.of _,Clock.total_of _,render_eq _⟩,read_render _,?_⟩
  intro seconds' nanos' h'
  rw [hwhole seconds' nanos' h']
  constructor
  · intro heq
    have hread := congrArg read? heq
    rw [read_render, read_render] at hread
    exact Option.some.inj hread
  · exact congrArg render

/-- Two durations within one millisecond, and one that falls short of it. -/
theorem hour_and_more_tells_whole_millis :
    render (wholeMillis 3602 1999999) = "1 hour, 2 seconds, 1 millisecond" ∧
      read? "1 hour, 2 seconds, 1 millisecond" = some 3602001 ∧
      render (wholeMillis 3602 1000000) = "1 hour, 2 seconds, 1 millisecond" ∧
      render (wholeMillis 3602 999999) ≠ "1 hour, 2 seconds, 1 millisecond" := by
  have htext : render (wholeMillis 3602 1999999) = "1 hour, 2 seconds, 1 millisecond" := by
    decide +kernel
  obtain ⟨-, hread, hsame⟩ := text_tells_whole_millis 3602 1999999 (by decide)
  rw [htext] at hread hsame
  refine ⟨htext,hread,(hsame 3602 1000000 (by decide)).mpr rfl,fun heq => ?_⟩
  exact absurd ((hsame 3602 999999 (by decide)).mp heq) (by decide)

end VmFleet.Text.Duration
