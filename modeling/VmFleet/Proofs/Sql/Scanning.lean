import Mathlib.Data.List.TakeWhile
import VmFleet.Proofs.Sql.Shapes
import VmFleet.Proofs.Sql.Stops

/-!
# The tokens of a text

The bound of a scan does not matter as long as the text fits in it. The tokens give the text back,
up to a gap at its end. A text that is given back whole, and whose last token is closed, has the
same tokens in front of a comma or a closing parenthesis.
-/

set_option autoImplicit false

namespace VmFleet.Sql

def scanAll (gap cs : List Char) : List Token := scan cs.length gap cs

theorem scan_bound (b b' : Nat) (gap cs : List Char) (h : cs.length ≤ b) (h' : cs.length ≤ b') :
    scan b gap cs = scan b' gap cs := by
  induction b generalizing b' gap cs with
  | zero =>
    obtain rfl := List.length_eq_zero_iff.1 (Nat.le_zero.1 h)
    cases b' <;> rfl
  | succ b ih =>
    cases b' with
    | zero =>
      obtain rfl := List.length_eq_zero_iff.1 (Nat.le_zero.1 h')
      rfl
    | succ b' =>
      unfold scan
      split
      · rename_i more rest hgap
        have hlen := gap_shorter cs more rest hgap
        exact ih b' _ _ (by omega) (by omega)
      · split
        · rfl
        · rename_i hcs
          have hlen := token_shorter cs (by simpa using hcs)
          exact congrArg (⟨gap, (token cs).1, (token cs).2.1⟩ :: ·)
            (ih b' [] (token cs).2.2 (by omega) (by omega))

theorem scanAll_gap (gap cs more rest : List Char) (h : gap? cs = some (more, rest)) :
    scanAll gap cs = scanAll (gap ++ more) rest := by
  have hlen := gap_shorter cs more rest h
  rw [scanAll, scan_bound cs.length (cs.length + 1) gap cs (by omega) (by omega), scan, h]
  exact scan_bound _ _ _ _ (by omega) (by omega)

theorem scanAll_token (gap cs : List Char) (h : gap? cs = none) (hcs : cs ≠ []) :
    scanAll gap cs = ⟨gap, (token cs).1, (token cs).2.1⟩ :: scanAll [] (token cs).2.2 := by
  have hlen := token_shorter cs hcs
  rw [scanAll, scan_bound cs.length (cs.length + 1) gap cs (by omega) (by omega), scan, h]
  simp only [show cs.isEmpty = false by simpa using hcs, Bool.false_eq_true, if_false]
  exact congrArg (⟨gap, (token cs).1, (token cs).2.1⟩ :: ·)
    (scan_bound cs.length (token cs).2.2.length [] (token cs).2.2 (by omega) (by omega))

/-- A scan passes over a gap or reads a token until nothing is left. -/
theorem scan_induction {motive : List Char → List Char → Prop}
    (nil : ∀ gap, motive gap [])
    (gap : ∀ gap cs more rest, gap? cs = some (more, rest) → motive (gap ++ more) rest →
      motive gap cs)
    (token : ∀ gap cs, gap? cs = none → cs ≠ [] → motive [] (token cs).2.2 → motive gap cs)
    (g cs : List Char) : motive g cs := by
  induction hn : cs.length using Nat.strongRecOn generalizing g cs with
  | ind n ih =>
    subst hn
    rcases hgap : gap? cs with _ | ⟨more, rest⟩
    · rcases cs with _ | ⟨c, t⟩
      · exact nil g
      · exact token g _ hgap (by simp) (ih _ (token_shorter _ (by simp)) [] _ rfl)
    · exact gap g cs more rest hgap (ih _ (gap_shorter cs more rest hgap) _ _ rfl)

/-- The text of tokens, with the gaps before them. -/
def spell (ts : List Token) : List Char := ts.flatMap fun t => t.gap ++ t.text

theorem spell_scanAll (gap cs : List Char) :
    ∃ last, spell (scanAll gap cs) ++ last = gap ++ cs := by
  induction gap, cs using scan_induction with
  | nil gap => exact ⟨gap, by simp [scanAll, scan, spell]⟩
  | gap g cs more rest h ih =>
    obtain ⟨last, hlast⟩ := ih
    rw [scanAll_gap g cs more rest h]
    exact ⟨last, by rw [hlast, List.append_assoc, (gap_text cs more rest h).1]⟩
  | token g cs h hcs ih =>
    obtain ⟨last, hlast⟩ := ih
    refine ⟨last, ?_⟩
    rw [scanAll_token g cs h hcs]
    simp only [spell, List.flatMap_cons, List.append_assoc, List.nil_append] at hlast ⊢
    rw [hlast, token_text]

theorem scanAll_append (s : Char) (hs : s = ',' ∨ s = ')') (rest gap cs : List Char)
    (hwhole : spell (scanAll gap cs) = gap ++ cs)
    (hlast : ∀ t ∈ (scanAll gap cs).getLast?,
      t.kind ≠ .invalid ∧ ¬(t.kind = .mark ∧ t.text = ['*'])) :
    scanAll gap (cs ++ s :: rest) = scanAll gap cs ++ scanAll [] (s :: rest) := by
  induction gap, cs using scan_induction with
  | nil gap =>
    obtain rfl : gap = [] := by simpa [scanAll, scan, spell] using hwhole.symm
    rfl
  | gap g cs more after h ih =>
    obtain ⟨htext, hne⟩ := gap_text cs more after h
    rw [scanAll_gap g cs more after h] at hwhole hlast ⊢
    have hafter : after ≠ [] := by
      rintro rfl
      simp [scanAll, scan, spell, ← htext, hne] at hwhole
    rw [scanAll_gap g _ more _ (gap_append cs more after rest s h hafter)]
    exact ih (by rw [hwhole, List.append_assoc, htext]) hlast
  | token g cs h hcs ih =>
    rw [scanAll_token g cs h hcs] at hwhole hlast ⊢
    have hslash : cs ≠ ['/', '*'] := by
      rintro rfl
      exact (hlast ⟨[], .mark, ['*']⟩ rfl).2 ⟨rfl, rfl⟩
    have hclosed : (token cs).1 ≠ .invalid ∨ (token cs).2.2 ≠ [] := by
      refine Decidable.or_iff_not_imp_right.2 fun hnil => ?_
      rw [Decidable.not_not.1 hnil] at hlast
      exact (hlast _ rfl).1
    have hgap := gap_append_none cs rest s (by rcases hs with rfl | rfl <;> decide) h hcs hslash
    rw [scanAll_token g _ hgap (by simp), token_append s hs rest cs hcs hclosed, List.cons_append]
    refine congrArg _ (ih ?_ fun t ht => hlast t ?_)
    · simp only [spell, List.flatMap_cons, List.append_assoc] at hwhole ⊢
      exact (List.append_right_inj (g ++ (token cs).2.1)).1 (by simpa [token_text] using hwhole)
    · rw [List.getLast?_cons, Option.mem_def.1 ht]
      rfl

/-! ## Words and marks -/

structure IsWord (w : List Char) : Prop where
  starts : ∃ c ∈ w.head?, startsName c = true ∧ c ≠ '\ufeff'
  goes_on : ∀ c ∈ w, isNameChar c = true

theorem not_isDigit_of_startsName (c : Char) (h : startsName c = true) : c.isDigit = false := by
  cases hdigit : c.isDigit with
  | false => rfl
  | true =>
    have hrange : 48 ≤ c.toNat ∧ c.toNat ≤ 57 := by
      simpa [Char.isDigit, UInt32.le_iff_toNat_le] using hdigit
    simp only [startsName, Bool.or_eq_true, decide_eq_true_eq, isAlpha_iff] at h
    rcases h with (h | rfl) | h
    · omega
    · exact absurd hrange (by decide)
    · omega

theorem alone_of_startsName (c : Char) (cs : List Char) (h : startsName c = true)
    (hquote : ∀ d ∈ cs.head?, d ≠ '\'') : Alone c cs := by
  have hstart (d : Char) (hd : startsName d = false) : c ≠ d := by
    rintro rfl
    simp [hd] at h
  refine ⟨?_, fun d hd => ⟨hstart '.' rfl, ?_⟩⟩
  · simp only [openers, List.mem_cons, List.not_mem_nil, or_false, not_or]
    exact ⟨hstart _ rfl, hstart _ rfl, hstart _ rfl, hstart _ rfl, hstart _ rfl⟩
  · simp [pairs, hquote d hd, hstart '-' rfl, hstart '=' rfl, hstart '<' rfl, hstart '>' rfl,
      hstart '!' rfl, hstart '|' rfl]

theorem gap_of_startsName (c : Char) (cs : List Char) (h : startsName c = true)
    (hmark : c ≠ '\ufeff') : gap? (c :: cs) = none := by
  have hblank := not_isBlank_of_isNameChar c (isNameChar_of_startsName c h)
  rw [gap?]
  · simp [startsBlank, hblank]
  · rintro t rfl
    cases h
  · rintro d t rfl
    cases h
  · exact hmark

instance (w : List Char) : Decidable (IsWord w) :=
  decidable_of_iff ((w.head?.any fun c => startsName c && c ≠ '\ufeff') ∧ w.all isNameChar)
    ⟨fun h => ⟨by simpa [Option.any_eq_true] using h.1, by simpa using h.2⟩,
      fun h => ⟨by simpa [Option.any_eq_true] using h.starts, by simpa using h.goes_on⟩⟩

/-- A word in front ends here, and an X in front starts no bytes. -/
def Ends (cs : List Char) : Prop := ∃ s ∈ cs.head?, isNameChar s = false ∧ s ≠ '\''

theorem scanAll_word (gap w rest : List Char) (hw : IsWord w) (hrest : Ends rest) :
    scanAll gap (w ++ rest) = ⟨gap, .word, w⟩ :: scanAll [] rest := by
  obtain ⟨⟨c, hc, hstart, hmark⟩, hall⟩ := hw
  obtain ⟨t, rfl⟩ := List.head?_eq_some_iff.1 hc
  obtain ⟨s, hs, hname, hquote⟩ := hrest
  obtain ⟨rest, rfl⟩ := List.head?_eq_some_iff.1 hs
  have halone : Alone c (t ++ s :: rest) := by
    refine alone_of_startsName c _ hstart fun d hd => ?_
    rcases t with _ | ⟨e, t⟩
    · cases hd
      exact hquote
    · cases hd
      rintro rfl
      cases hall '\'' (by simp)
  have hcut : cut isNameChar (c :: (t ++ s :: rest)) = (c :: t, s :: rest) := by
    have hwhole : cut isNameChar (c :: t) = (c :: t, []) := by
      rw [cut, List.takeWhile_eq_self_iff.2 hall, List.dropWhile_eq_nil_iff.2 hall]
    simpa [hwhole] using cut_append isNameChar (c :: t) rest s (Or.inl hname)
  rw [List.cons_append, scanAll_token gap _ (gap_of_startsName c _ hstart hmark) (by simp),
    token_alone c _ halone]
  simp [not_isDigit_of_startsName c hstart, hstart, hcut]

theorem scanAll_mark (gap rest : List Char) (c : Char) (hc : c ∈ ['(', ')', ',', ';']) :
    scanAll gap (c :: rest) = ⟨gap, .mark, [c]⟩ :: scanAll [] rest := by
  simp only [List.mem_cons, List.not_mem_nil, or_false] at hc
  rw [scanAll_token gap (c :: rest) ?_ (by simp)]
  · rcases hc with rfl | rfl | rfl | rfl <;> rfl
  · rcases hc with rfl | rfl | rfl | rfl <;> rfl

theorem scanAll_blank (gap cs : List Char) (h : ∃ c ∈ cs.head?, isBlank c = false) :
    scanAll gap (' ' :: cs) = scanAll (gap ++ [' ']) cs := by
  obtain ⟨c, hc, hblank⟩ := h
  obtain ⟨rest, rfl⟩ := List.head?_eq_some_iff.1 hc
  refine scanAll_gap gap _ [' '] (c :: rest) ?_
  simp [gap?, startsBlank, cut, hblank, show isBlank ' ' = true from rfl]

theorem IsWord.unblank (w : List Char) (h : IsWord w) : ∃ c ∈ w.head?, isBlank c = false := by
  obtain ⟨c, hc, hstart, -⟩ := h.starts
  exact ⟨c, hc, not_isBlank_of_isNameChar c (isNameChar_of_startsName c hstart)⟩

theorem unblank_append (cs ds : List Char) (h : ∃ c ∈ cs.head?, isBlank c = false) :
    ∃ c ∈ (cs ++ ds).head?, isBlank c = false := by
  obtain ⟨c, hc, hblank⟩ := h
  exact ⟨c, by rw [List.head?_append, hc]; rfl, hblank⟩

/-- The words, each after a blank. -/
def spacedText (ws : List (List Char)) : List Char := ws.flatMap fun w => ' ' :: w

def spacedTokens (ws : List (List Char)) : List Token := ws.map fun w => ⟨[' '], .word, w⟩

theorem ends_spaced (ws : List (List Char)) (rest : List Char) (h : Ends rest) :
    Ends (spacedText ws ++ rest) := by
  cases ws with
  | nil => exact h
  | cons w ws => exact ⟨' ', rfl, rfl, by decide⟩

theorem scanAll_spaced (ws : List (List Char)) (hws : ∀ w ∈ ws, IsWord w) (rest : List Char)
    (hrest : Ends rest) :
    scanAll [] (spacedText ws ++ rest) = spacedTokens ws ++ scanAll [] rest := by
  induction ws with
  | nil => rfl
  | cons w ws ih =>
    have hw := hws w (by simp)
    have hsplit : spacedText (w :: ws) ++ rest = ' ' :: (w ++ (spacedText ws ++ rest)) := by
      simp [spacedText]
    rw [hsplit, scanAll_blank [] _ (unblank_append w _ hw.unblank),
      scanAll_word _ w _ hw (ends_spaced ws rest hrest),
      ih fun w hw => hws w (List.mem_cons_of_mem _ hw)]
    rfl

/-! ## A gap in front -/

def prepend (gap : List Char) : List Token → List Token
  | [] => []
  | t :: ts => { t with gap := gap ++ t.gap } :: ts

theorem scanAll_prepend (g h cs : List Char) :
    scanAll (g ++ h) cs = prepend g (scanAll h cs) := by
  induction h, cs using scan_induction with
  | nil h => rfl
  | gap h cs more rest hgap ih =>
    rw [scanAll_gap _ cs more rest hgap, scanAll_gap h cs more rest hgap, List.append_assoc, ih]
  | token h cs hgap hcs _ =>
    rw [scanAll_token _ cs hgap hcs, scanAll_token h cs hgap hcs]
    rfl

theorem mem_scanAll (gap cs : List Char) (t : Token) (h : t ∈ scanAll gap cs) :
    ∃ all, all ≠ [] ∧ (token all).1 = t.kind ∧ (token all).2.1 = t.text := by
  induction gap, cs using scan_induction with
  | nil => cases h
  | gap g cs more rest hgap ih =>
    rw [scanAll_gap g cs more rest hgap] at h
    exact ih h
  | token g cs hgap hcs ih =>
    rw [scanAll_token g cs hgap hcs, List.mem_cons] at h
    rcases h with rfl | h
    · exact ⟨cs, hcs, rfl, rfl⟩
    · exact ih h

end VmFleet.Sql
