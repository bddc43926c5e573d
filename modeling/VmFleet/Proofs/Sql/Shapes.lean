import VmFleet.Proofs.Sql.Extents

/-!
# What tokens look like

A word is made of the characters of names. Strings, numbers and bytes have no blank at either end,
so that trimming the text of a literal changes nothing.
-/

set_option autoImplicit false

namespace VmFleet.Sql

/-! ## Blanks -/

/-- No blank is among the characters of a class that the six blanks are not in. -/
theorem not_isBlank (p : Char → Bool) (c : Char) (hc : p c = true)
    (hp : [' ', '\t', '\n', '\x0b', '\x0c', '\r'].any p = false) : isBlank c = false := by
  cases hblank : isBlank c with
  | false => rfl
  | true =>
    refine absurd hc (List.any_eq_false.1 hp c ?_)
    simpa [isBlank, or_assoc] using hblank

theorem not_isBlank_of_isNameChar (c : Char) (h : isNameChar c = true) : isBlank c = false :=
  not_isBlank isNameChar c h (by decide)

/-! ## Ends without blanks -/

/-- A text with no blank at its start or at its end. -/
def Solid (cs : List Char) : Prop :=
  (∀ c ∈ cs.head?, isBlank c = false) ∧ ∀ c ∈ cs.getLast?, isBlank c = false

instance (cs : List Char) : Decidable (Solid cs) :=
  decidable_of_iff (cs.head?.all (!isBlank ·) ∧ cs.getLast?.all (!isBlank ·))
    (by simp [Solid, Option.all_eq_true])

theorem trimBlanks_solid (cs : List Char) (h : Solid cs) : trimBlanks cs = cs := by
  have hdrop (l : List Char) (hl : ∀ c ∈ l.head?, isBlank c = false) : l.dropWhile isBlank = l := by
    cases l with
    | nil => rfl
    | cons c l => simp [hl c rfl]
  rw [trimBlanks, hdrop cs h.1, hdrop cs.reverse (by simpa using h.2), List.reverse_reverse]

theorem trimBlanks_length (cs : List Char) : (trimBlanks cs).length ≤ cs.length := by
  have hstart := (List.dropWhile_suffix (l := cs) isBlank).length_le
  have hend := (List.dropWhile_suffix (l := (cs.dropWhile isBlank).reverse) isBlank).length_le
  rw [List.length_reverse] at hend
  rw [trimBlanks, List.length_reverse]
  omega

theorem solid_of_trimBlanks (cs : List Char) (h : trimBlanks cs = cs) : Solid cs := by
  have hlen := congrArg List.length h
  have hstart := List.dropWhile_suffix (l := cs) isBlank
  have hend := List.dropWhile_suffix (l := (cs.dropWhile isBlank).reverse) isBlank
  have hshort := hstart.length_le
  have hshorter := hend.length_le
  rw [List.length_reverse] at hshorter
  rw [trimBlanks, List.length_reverse] at hlen
  have hhead := hstart.eq_of_length (by omega)
  have hlast := hend.eq_of_length (by rw [List.length_reverse]; omega)
  rw [hhead] at hlast
  constructor
  · intro c hc
    have hnot := List.head?_dropWhile_not isBlank cs
    rw [hhead, hc] at hnot
    simpa using hnot
  · intro c hc
    have hnot := List.head?_dropWhile_not isBlank cs.reverse
    rw [hlast, List.head?_reverse, hc] at hnot
    simpa using hnot

theorem solid_of_all (cs : List Char) (h : ∀ c ∈ cs, isBlank c = false) : Solid cs :=
  ⟨fun c hc => h c (List.mem_of_mem_head? hc), fun c hc => h c (List.mem_of_getLast? hc)⟩

theorem solid_between (c d : Char) (cs : List Char) (hc : isBlank c = false)
    (hd : isBlank d = false) : Solid (c :: cs ++ [d]) := by
  constructor
  · simpa using hc
  · simpa [List.getLast?_cons] using hd

theorem cut_all (p : Char → Bool) (cs : List Char) : ∀ c ∈ (cut p cs).1, p c = true := by
  have h := List.all_takeWhile (p := p) (l := cs)
  exact List.all_eq_true.1 h

/-! ## Numbers have no blanks -/

theorem isBlank_of_isDigit (c : Char) (h : c.isDigit = true) : isBlank c = false :=
  not_isBlank Char.isDigit c h (by decide)

theorem separated_unblank (cs inner rest : List Char)
    (h : cut isDigitOrSeparator cs = (inner, rest)) : ∀ c ∈ inner, isBlank c = false := fun c hc =>
  not_isBlank _ c (cut_all _ cs c (by rw [h]; exact hc)) (by decide)

theorem fraction_unblank (cs : List Char) : ∀ c ∈ (fraction cs).1, isBlank c = false := by
  fun_cases fraction cs with
  | case1 cs inner rest h => simpa using ⟨rfl, separated_unblank cs inner rest h⟩
  | case2 => simp

theorem exponent_unblank (cs : List Char) : ∀ c ∈ (exponent cs).1, isBlank c = false := by
  have he (c : Char) (h : ¬c = 'e' → c = 'E') : isBlank c = false := by
    by_cases hc : c = 'e'
    · rw [hc]
      rfl
    · rw [h hc]
      rfl
  fun_cases exponent cs with
  | case1 | case4 | case6 | case7 => simp
  | case2 e s d cs hes _ inner rest h =>
    simpa using ⟨he e (by simpa using hes), separated_unblank _ inner rest h⟩
  | case3 e s d cs hes _ hsd inner rest h =>
    have hs : isBlank s = false := by
      simp at hsd
      rcases hsd.1 with rfl | rfl <;> rfl
    simpa using ⟨he e (by simpa using hes), hs, separated_unblank _ inner rest h⟩
  | case5 e d h =>
    simp at h
    simpa using ⟨he e fun hne => h.1.resolve_left hne, isBlank_of_isDigit d h.2⟩

theorem decimal_unblank (cs : List Char) : ∀ c ∈ (digits.decimal cs).1, isBlank c = false := by
  simp only [digits.decimal, List.mem_append]
  rintro c ((hc | hc) | hc)
  · exact separated_unblank _ _ _ rfl c hc
  · exact fraction_unblank _ c hc
  · exact exponent_unblank _ c hc

theorem digits_unblank (cs : List Char) : ∀ c ∈ (digits cs).1, isBlank c = false := by
  fun_cases digits cs with
  | case1 x d rest hx more after h =>
    have hmore : ∀ c ∈ more, isBlank c = false := fun c hc =>
      not_isBlank (fun c => isHexDigit c || c = '_') c (cut_all _ _ c (by rw [h]; exact hc))
        (by decide)
    have hx' : isBlank x = false := by
      simp at hx
      rcases hx.1 with rfl | rfl <;> rfl
    simpa using ⟨rfl, hx', hmore⟩
  | case2 => exact decimal_unblank _
  | case3 => exact decimal_unblank _

/-! ## Kinds of tokens -/

/-- What is known of the text of a token by its kind. -/
def Fits (kind : Kind) (text : List Char) : Prop :=
  match kind with
  | .word => ∀ c ∈ text, isNameChar c = true
  | .string | .blob | .number | .groupedNumber => Solid text
  | _ => True

theorem numberToken_fits (cs : List Char) : Fits (numberToken cs).1 (numberToken cs).2.1 := by
  have hsolid := solid_of_all _ (digits_unblank cs)
  fun_cases numberToken cs with
  | case1 => trivial
  | case2 number rest h =>
    rw [h] at hsolid
    simp only
    split <;> exact hsolid

theorem blobToken_fits (x : Char) (hx : isBlank x = false) (cs : List Char) :
    Fits (blobToken x cs).1 (blobToken x cs).2.1 := by
  fun_cases blobToken x cs with
  | case1 hex after h =>
    have hsolid : Solid (x :: '\'' :: hex ++ ['\'']) := solid_between x '\'' _ hx rfl
    simp only
    split
    · exact hsolid
    · trivial
  | case2 => trivial

theorem token_fits (cs : List Char) : Fits (token cs).1 (token cs).2.1 := by
  fun_cases token cs
  case case2 cs =>
    cases hin : quoted '\'' cs with
    | none => simp [quotedToken, hin, Fits]
    | some found =>
      obtain ⟨inner, rest⟩ := found
      obtain ⟨t, ht⟩ := List.getLast?_eq_some_iff.1 (quoted_text '\'' cs inner rest hin).2
      simp only [quotedToken, hin, ht]
      exact solid_between '\'' '\'' t rfl rfl
  case case3 cs | case4 cs =>
    simp only [quotedToken]
    split <;> trivial
  case case7 cs | case8 cs => exact blobToken_fits _ rfl cs
  case case20 | case22 => exact numberToken_fits _
  case case23 name rest h =>
    intro c hc
    exact cut_all isNameChar _ c (by rw [h]; exact hc)
  case case24 =>
    simp only
    split <;> trivial
  all_goals trivial

end VmFleet.Sql
