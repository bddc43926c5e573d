import VmFleet.Sql.Token

/-!
# What is read and what is left

Every reader takes some characters off the start of a text. What it read and what it left give the
text back, and a token or a gap that was found has at least one character.
-/

set_option autoImplicit false

namespace VmFleet.Sql

/-! ## Cutting -/

theorem cut_text (p : Char → Bool) (cs inner rest : List Char) (h : cut p cs = (inner, rest)) :
    inner ++ rest = cs := by
  cases h
  exact List.takeWhile_append_dropWhile

theorem cut_stops (p : Char → Bool) (cs inner rest : List Char) (c : Char)
    (h : cut p cs = (inner, c :: rest)) : p c = false := by
  have hhead := List.head?_dropWhile_not p cs
  rw [show cs.dropWhile p = c :: rest from congrArg Prod.snd h] at hhead
  simpa using hhead

theorem cut_append (p : Char → Bool) (cs rest : List Char) (s : Char)
    (h : p s = false ∨ (cut p cs).2 ≠ []) :
    cut p (cs ++ s :: rest) = ((cut p cs).1, (cut p cs).2 ++ s :: rest) := by
  induction cs with
  | nil => simp_all [cut]
  | cons c cs ih =>
    cases hc : p c with
    | false => simp [cut, hc]
    | true =>
      simp only [cut, List.dropWhile_cons, hc, if_true, Prod.mk.injEq] at h ih
      simp [cut, hc, ih h]

theorem quoted_text (q : Char) (cs inner after : List Char)
    (h : quoted q cs = some (inner, after)) :
    inner ++ after = cs ∧ inner.getLast? = some q := by
  induction cs using quoted.induct q generalizing inner after with
  | case1 => cases h
  | case2 =>
    simp only [quoted, if_true, Option.some.injEq, Prod.mk.injEq] at h
    simp [← h.1, ← h.2]
  | case3 c hc => simp [quoted, hc] at h
  | case4 cs ih =>
    simp only [quoted, if_true, Option.map_eq_some_iff, Prod.exists, Prod.mk.injEq] at h
    obtain ⟨i, a, hin, rfl, rfl⟩ := h
    obtain ⟨rfl, hlast⟩ := ih i a hin
    simp [List.getLast?_cons, hlast]
  | case5 d cs hd =>
    simp only [quoted, if_true, if_neg hd, Option.some.injEq, Prod.mk.injEq] at h
    simp [← h.1, ← h.2]
  | case6 c d cs hc ih =>
    simp only [quoted, if_neg hc, Option.map_eq_some_iff, Prod.exists, Prod.mk.injEq] at h
    obtain ⟨i, a, hin, rfl, rfl⟩ := h
    obtain ⟨hcs, hlast⟩ := ih i a hin
    simp [hcs, List.getLast?_cons, hlast]

theorem quoted_append (q s : Char) (hq : s ≠ q) (cs rest inner after : List Char)
    (h : quoted q cs = some (inner, after)) :
    quoted q (cs ++ s :: rest) = some (inner, after ++ s :: rest) := by
  induction cs using quoted.induct q generalizing inner after with
  | case1 => cases h
  | case2 =>
    simp only [quoted, if_true, Option.some.injEq, Prod.mk.injEq] at h
    simp [quoted, hq, ← h.1, ← h.2]
  | case3 c hc => simp [quoted, hc] at h
  | case4 cs ih =>
    simp only [quoted, if_true, Option.map_eq_some_iff, Prod.exists, Prod.mk.injEq] at h
    obtain ⟨i, a, hin, rfl, rfl⟩ := h
    simp [quoted, ih i a hin]
  | case5 d cs hd =>
    simp only [quoted, if_true, if_neg hd, Option.some.injEq, Prod.mk.injEq] at h
    simp [quoted, hd, ← h.1, ← h.2]
  | case6 c d cs hc ih =>
    simp only [quoted, if_neg hc, Option.map_eq_some_iff, Prod.exists, Prod.mk.injEq] at h
    obtain ⟨i, a, hin, rfl, rfl⟩ := h
    have hd := ih i a hin
    simp only [List.cons_append] at hd ⊢
    simp [quoted, hc, hd]

theorem quotedToken_text (kind : Kind) (q : Char) (cs : List Char) :
    (quotedToken kind q cs).2.1 ++ (quotedToken kind q cs).2.2 = q :: cs := by
  cases hin : quoted q cs with
  | none => simp [quotedToken, hin]
  | some found => simp [quotedToken, hin, (quoted_text q cs found.1 found.2 hin).1]

theorem quotedToken_append (kind : Kind) (q s : Char) (hq : s ≠ q) (rest cs : List Char)
    (h : (quotedToken kind q cs).1 ≠ .invalid ∨ (quotedToken kind q cs).2.2 ≠ []) :
    quotedToken kind q (cs ++ s :: rest) =
      ((quotedToken kind q cs).1, (quotedToken kind q cs).2.1,
        (quotedToken kind q cs).2.2 ++ s :: rest) := by
  cases hin : quoted q cs with
  | none => simp [quotedToken, hin] at h
  | some found => simp [quotedToken, hin, quoted_append q s hq cs rest found.1 found.2 hin]

/-! ## Numbers -/

theorem fraction_text (cs : List Char) : (fraction cs).1 ++ (fraction cs).2 = cs := by
  fun_cases fraction cs with
  | case1 cs digits rest h => simp [cut_text _ cs digits rest h]
  | case2 => rfl

theorem exponent_text (cs : List Char) : (exponent cs).1 ++ (exponent cs).2 = cs := by
  fun_cases exponent cs with
  | case1 | case4 | case5 | case6 | case7 => rfl
  | case2 e s d cs _ _ digits rest h => simp [cut_text _ _ digits rest h]
  | case3 e s d cs _ _ _ digits rest h => simp [cut_text _ _ digits rest h]

theorem decimal_text (cs : List Char) : (digits.decimal cs).1 ++ (digits.decimal cs).2 = cs := by
  simp only [digits.decimal, List.append_assoc, exponent_text, fraction_text]
  exact cut_text isDigitOrSeparator cs _ _ rfl

theorem digits_text (cs : List Char) : (digits cs).1 ++ (digits cs).2 = cs := by
  fun_cases digits cs with
  | case1 x d rest _ more after h => simp [cut_text _ _ more after h]
  | case2 => exact decimal_text _
  | case3 => exact decimal_text _

theorem numberToken_text (cs : List Char) : (numberToken cs).2.1 ++ (numberToken cs).2.2 = cs := by
  have hdigits := digits_text cs
  fun_cases numberToken cs with
  | case1 number rest hnumber more after h =>
    rw [hnumber] at hdigits
    simp [cut_text _ _ more after h, hdigits]
  | case2 number rest hnumber =>
    rw [hnumber] at hdigits
    exact hdigits

theorem blobToken_text (x : Char) (cs : List Char) :
    (blobToken x cs).2.1 ++ (blobToken x cs).2.2 = x :: '\'' :: cs := by
  fun_cases blobToken x cs with
  | case1 hex after h => simp [cut_text _ cs hex _ h]
  | case2 hex rest h => simp [cut_text _ cs hex _ h]

theorem token_text (cs : List Char) : (token cs).2.1 ++ (token cs).2.2 = cs := by
  fun_cases token cs
  case case5 | case6 | case9 | case23 | case24 => simpa using cut_text _ _ _ _ ‹_›
  all_goals simp [quotedToken_text, blobToken_text, numberToken_text]

theorem isAlpha_iff (c : Char) :
    c.isAlpha = true ↔ (65 ≤ c.toNat ∧ c.toNat ≤ 90) ∨ (97 ≤ c.toNat ∧ c.toNat ≤ 122) := by
  change (decide (c.val ≥ 65 ∧ c.val ≤ 90) || (decide (c.val ≥ 97) && decide (c.val ≤ 122))) =
    true ↔ _
  simp [UInt32.le_iff_toNat_le]

theorem isNameChar_of_startsName (c : Char) (h : startsName c = true) : isNameChar c = true := by
  simp only [startsName, isNameChar, Char.isAlphanum, Bool.or_eq_true, decide_eq_true_eq] at h ⊢
  rcases h with (h | h) | h <;> simp [h]

theorem digits_ne_nil (c : Char) (cs : List Char) (h : c.isDigit = true ∨ c = '.') :
    (digits (c :: cs)).1 ≠ [] := by
  have hdec : (digits.decimal (c :: cs)).1 ≠ [] := by
    rcases h with h | rfl
    · simp [digits.decimal, cut, isDigitOrSeparator, h]
    · simp [digits.decimal, cut, isDigitOrSeparator, fraction]
  generalize hcs : c :: cs = all at hdec ⊢
  fun_cases digits all with
  | case1 => simp
  | case2 => exact hdec
  | case3 => exact hdec

theorem numberToken_ne_nil (c : Char) (cs : List Char) (h : c.isDigit = true ∨ c = '.') :
    (numberToken (c :: cs)).2.1 ≠ [] := by
  have hdigits := digits_ne_nil c cs h
  simp only [numberToken]
  split
  · simp [hdigits]
  · exact hdigits

theorem token_ne_nil (cs : List Char) (h : cs ≠ []) : (token cs).2.1 ≠ [] := by
  fun_cases token cs
  case case1 => exact absurd rfl h
  case case2 cs | case3 cs | case4 cs =>
    simp only [quotedToken]
    split <;> simp
  case case7 cs | case8 cs => fun_cases blobToken _ cs <;> simp
  case case20 d cs _ => exact numberToken_ne_nil '.' _ (Or.inr rfl)
  case case22 c cs _ _ _ _ _ _ _ _ _ _ _ _ _ _ _ _ _ _ hd =>
    exact numberToken_ne_nil c cs (Or.inl hd)
  case case23 hc name rest hin =>
    intro hnil
    simp only at hnil
    subst hnil
    simp [cut, isNameChar_of_startsName _ hc] at hin
  all_goals simp

theorem token_shorter (cs : List Char) (h : cs ≠ []) : (token cs).2.2.length < cs.length := by
  have hlen := congrArg List.length (token_text cs)
  have hpos := List.length_pos_iff.2 (token_ne_nil cs h)
  rw [List.length_append] at hlen
  omega

/-! ## Gaps -/

theorem comment_text (cs : List Char) : (comment cs).1 ++ (comment cs).2 = cs := by
  induction cs using comment.induct with
  | case1 => rfl
  | case2 c cs h inner rest hin ih => simp [comment, ih]
  | case3 => rfl

theorem comment_append (cs after : List Char) (h : (comment cs).2 ≠ []) :
    comment (cs ++ after) = ((comment cs).1, (comment cs).2 ++ after) := by
  induction cs using comment.induct with
  | case1 => rfl
  | case2 c cs hc inner rest hin ih =>
    have hnext : ∀ t, c = '*' → cs ++ after = '/' :: t → False := by
      rintro t rfl ht
      rcases cs with _ | ⟨d, cs⟩
      · exact h rfl
      · cases ht
        exact hc cs rfl rfl
    simp only [comment] at h
    simp [comment, ih h]
  | case3 => exact absurd rfl h

theorem gap_text (cs more rest : List Char) (h : gap? cs = some (more, rest)) :
    more ++ rest = cs ∧ more ≠ [] := by
  revert h
  fun_cases gap? cs with
  | case1 cs inner after hcut =>
    rintro ⟨⟩
    refine ⟨?_, by simp⟩
    rw [← cut_text _ cs inner _ hcut]
    rfl
  | case2 c cs inner after hin =>
    rintro ⟨⟩
    simpa [hin] using comment_text (c :: cs)
  | case3 =>
    rintro ⟨⟩
    simp
  | case4 c cs _ _ _ hc =>
    intro h
    have hblank : isBlank c = true := by simp_all [startsBlank]
    have hcut := cut_text isBlank (c :: cs) more rest (by simpa using h)
    refine ⟨hcut, ?_⟩
    rintro rfl
    simp [cut, hblank] at h
  | case5 | case6 => rintro ⟨⟩

theorem gap_shorter (cs more rest : List Char) (h : gap? cs = some (more, rest)) :
    rest.length < cs.length := by
  obtain ⟨htext, hne⟩ := gap_text cs more rest h
  have hlen := congrArg List.length htext
  have hpos := List.length_pos_iff.2 hne
  rw [List.length_append] at hlen
  omega

theorem gap_append (cs more rest after : List Char) (s : Char)
    (h : gap? cs = some (more, rest)) (hrest : rest ≠ []) :
    gap? (cs ++ s :: after) = some (more, rest ++ s :: after) := by
  revert h
  fun_cases gap? cs with
  | case1 cs inner r hcut =>
    rintro ⟨⟩
    have happend := cut_append (· ≠ '\n') cs after s (Or.inr (by rw [hcut]; exact hrest))
    simp only [List.cons_append, gap?, happend, hcut]
  | case2 c cs inner r hin =>
    rintro ⟨⟩
    have happend := comment_append (c :: cs) (s :: after) (by rw [hin]; exact hrest)
    simp only [List.cons_append] at happend
    simp only [List.cons_append, gap?, happend, hin]
  | case3 =>
    rintro ⟨⟩
    rfl
  | case4 c cs h1 h2 h3 hc =>
    intro h
    have hcut : cut isBlank (c :: cs) = (more, rest) := by simpa using h
    have happend := cut_append isBlank (c :: cs) after s (Or.inr (by rw [hcut]; exact hrest))
    rw [hcut] at happend
    have hc1 : c ≠ '-' := by rintro rfl; cases hc
    have hc2 : c ≠ '/' := by rintro rfl; cases hc
    simp only [List.cons_append] at happend ⊢
    rw [gap?]
    · simp [hc, happend]
    all_goals simp_all
  | case5 | case6 => rintro ⟨⟩

theorem gap_append_none (cs after : List Char) (s : Char) (hs : s ≠ '-' ∧ s ≠ '*')
    (h : gap? cs = none) (hcs : cs ≠ []) (hslash : cs ≠ ['/', '*']) :
    gap? (cs ++ s :: after) = none := by
  revert h
  fun_cases gap? cs with
  | case1 | case2 | case3 | case4 => rintro ⟨⟩
  | case5 c cs h1 h2 h3 hc =>
    intro _
    rw [List.cons_append, gap?]
    · simp [hc]
    · rintro t rfl ht
      rcases cs with _ | ⟨d, cs⟩
      · cases ht
        exact hs.1 rfl
      · cases ht
        exact h1 cs rfl rfl
    · rintro d t rfl ht
      rcases cs with _ | ⟨e, _ | ⟨f, cs⟩⟩
      · cases ht
        exact hs.2 rfl
      · cases ht
        exact hslash rfl
      · cases ht
        exact h2 _ _ rfl rfl
    · exact h3
  | case6 => exact absurd rfl hcs

end VmFleet.Sql
