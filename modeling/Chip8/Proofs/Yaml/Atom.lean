import Chip8.Proofs.Yaml.Block
import Chip8.Yaml.Token.Lexer

/-!
# Reading atoms

Plain scalars of letters, digits and underscores are the simplest scalars: none of their characters
means anything to the layout, so they end only where a blank, a line end or a colon stands.

Results:
1. `ne_of_isAtomChar` to `isPrintable_of_isAtomChar`: what the characters of atoms are not.
2. `gap?_spaces`, `skipFrom_spaces`: spaces before an atom.
3. `Atom.plain?_colon`, `Atom.plain?_lineEnd`: an atom is read as itself, up to a colon or over
   a line end and the indentation of a line that is not deeper.
-/

namespace Chip8.Yaml

variable {c : Char} {cs w rest : List Char}

/-! ## Characters -/

theorem ne_of_isAtomChar {d : Char} (ink : isAtomChar c) (sign : isAtomChar d = false) : c ≠ d := by
  rintro rfl
  rw [ink] at sign
  cases sign

theorem toNat_ne_of_isAtomChar {n : Nat} (ink : isAtomChar c)
    (sign : isAtomChar (Char.ofNat n) = false) : c.toNat ≠ n := by
  rintro rfl
  rw [Char.ofNat_toNat, ink] at sign
  cases sign

theorem isBreak_of_isAtomChar (ink : isAtomChar c) : isBreak c = false := by
  simp (disch := decide) [isBreak, ne_of_isAtomChar ink, toNat_ne_of_isAtomChar ink]

theorem isBlank_of_isAtomChar (ink : isAtomChar c) : isBlank c = false := by
  simp (disch := decide) [isBlank, ne_of_isAtomChar ink]

theorem isByteOrderMark_of_isAtomChar (ink : isAtomChar c) : isByteOrderMark c = false := by
  simp (disch := decide) [isByteOrderMark, toNat_ne_of_isAtomChar ink]

theorem isIndicator_of_isAtomChar (ink : isAtomChar c) : isIndicator c = false := by
  simp (disch := decide) [isIndicator, isFlowIndicator, ne_of_isAtomChar ink,
    toNat_ne_of_isAtomChar ink, isBreak_of_isAtomChar ink, isBlank_of_isAtomChar ink]

theorem isMarker_of_isAtomChar (ink : isAtomChar c) : isMarker (c :: cs) = false := by
  unfold isMarker
  split
  · next same => cases same; cases ink
  · next same => cases same; cases ink
  · rfl

theorem visible_of_isAlphanum (ink : c.isAlphanum) : 0x20 ≤ c.toNat ∧ c.toNat ≤ 0x7E := by
  rcases Bool.or_eq_true_iff.mp ink with letter | digit
  · rcases Bool.or_eq_true_iff.mp letter with upper | lower
    · have range : 65 ≤ c.toNat ∧ c.toNat ≤ 90 := of_decide_eq_true upper
      omega
    · have range := Bool.and_eq_true_iff.mp lower
      have low : 97 ≤ c.toNat := of_decide_eq_true range.1
      have high : c.toNat ≤ 122 := of_decide_eq_true range.2
      omega
  · have range := Bool.and_eq_true_iff.mp digit
    have low : 48 ≤ c.toNat := of_decide_eq_true range.1
    have high : c.toNat ≤ 57 := of_decide_eq_true range.2
    omega

theorem isPrintable_of_isAtomChar (ink : isAtomChar c) : isPrintable c := by
  have cases : (c.isAlphanum = true ∨ c = '_') ∨ 0xA0 ≤ c.toNat := by
    simp only [isAtomChar, Bool.or_eq_true, Bool.and_eq_true, decide_eq_true_eq] at ink
    exact ink.imp_right And.left
  rcases cases with (letter | rfl) | high
  · simp [isPrintable, visible_of_isAlphanum letter]
  · decide
  · have first : c.toNat ≠ 0xFFFE := toNat_ne_of_isAtomChar ink (by decide)
    have second : c.toNat ≠ 0xFFFF := toNat_ne_of_isAtomChar ink (by decide)
    have known : 0xA0 ≤ c.toNat ∧ c.toNat ≤ 0xFFFD ∨ 0x10000 ≤ c.toNat := by omega
    simpa [isPrintable, or_assoc] using .inr (.inr (.inr (.inr (.inr known))))

/-! ## Words -/

theorem uniform_eq_self (even : ∀ c ∈ cs, c ≠ '\r' ∧ c.toNat ≠ 0x85) : uniform cs = cs := by
  induction cs with
  | nil => rfl
  | cons c cs ih =>
    have first := even c (by simp)
    rw [uniform]
    · simp [first, ih fun d among => even d (by simp [among])]
    · intro cs' same
      exact absurd same first.1

theorem word?_append (flat : word? false rest = some ([], rest)) (ink : ∀ c ∈ w, isAtomChar c) :
    word? false (w ++ rest) = some (w, rest) := by
  induction w with
  | nil => exact flat
  | cons c w ih =>
    have first := ink c (by simp)
    have colon : c ≠ ':' := ne_of_isAtomChar first (by decide)
    simp [word?, isBlank_of_isAtomChar first, isBreak_of_isAtomChar first, colon,
      ih fun d among => ink d (by simp [among])]

theorem fold_ink (ink : ∀ c ∈ w, isAtomChar c) : fold {} (w.map Piece.of) = w := by
  induction w with
  | nil => rfl
  | cons c w ih =>
    have first := ink c (by simp)
    simp [Piece.of, isBlank_of_isAtomChar first, isBreak_of_isAtomChar first, fold, Gap.text,
      ih fun d among => ink d (by simp [among])]

theorem foldl_after_ink (p : Position) (ink : ∀ c ∈ w, isAtomChar c) :
    w.foldl Position.after p = { p with
      column := p.column + w.length
      offset := p.offset + (String.ofList w).utf8ByteSize } := by
  induction w generalizing p with
  | nil => rfl
  | cons c w ih =>
    have first := ink c (by simp)
    simp [Position.after, isBreak_of_isAtomChar first, ih _ fun d among => ink d (by simp [among]),
      String.ofList_cons]
    omega

theorem foldl_after_spaces (p : Position) (n : Nat) :
    (List.replicate n ' ').foldl Position.after p =
      { p with column := p.column + n, offset := p.offset + n } := by
  induction n generalizing p with
  | zero => rfl
  | succ n ih =>
    have wide : ' '.utf8Size = 1 := by decide
    rw [List.replicate_succ, List.foldl_cons, ih]
    simp [Position.after, isBreak, wide]
    omega

/-! ## Spaces -/

/-- The place in a line after spaces alone. -/
def Position.indented (line column : Nat) : Position where
  line := line
  column := column
  offset := column

/-- What comes next is an atom, or nothing. -/
def Begins (cs : List Char) : Prop := ∀ c ∈ cs.head?, isAtomChar c

theorem gap?_spaces (margin n : Nat) (broken : Bool) (p : Position) (begins : Begins rest) :
    gap? margin broken p (List.replicate n ' ' ++ rest) = some (List.replicate n ' ', rest) := by
  induction n generalizing p with
  | zero =>
    cases rest with
    | nil => rfl
    | cons c cs =>
      have first := begins c rfl
      simp [gap?, isBlank_of_isAtomChar first, isBreak_of_isAtomChar first]
  | succ n ih =>
    rw [List.replicate_succ, List.cons_append, gap?]
    simp [isBreak, isBlank, ih]

theorem skipFrom_ink (fresh : Bool) (p : Position) (begins : Begins rest) :
    Cursor.skipFrom false false fresh p rest = (⟨rest, p⟩, fresh) := by
  cases rest with
  | nil => rfl
  | cons c cs =>
    have first := begins c rfl
    simp (disch := decide) [Cursor.skipFrom, isBreak_of_isAtomChar first,
      isByteOrderMark_of_isAtomChar first, ne_of_isAtomChar first]

theorem skipFrom_spaces (fresh : Bool) (p : Position) (n : Nat) (begins : Begins rest) :
    Cursor.skipFrom false false fresh p (List.replicate n ' ' ++ rest)
      = (⟨rest, { p with column := p.column + n, offset := p.offset + n }⟩, fresh) := by
  induction n generalizing p with
  | zero => exact skipFrom_ink fresh p begins
  | succ n ih =>
    have wide : ' '.utf8Size = 1 := by decide
    rw [List.replicate_succ, List.cons_append, Cursor.skipFrom]
    simp [isBreak, ih, Position.after, wide]
    omega

/-! ## Atoms -/

namespace Atom

def token (a : Atom) : Token := .scalar .plain a.text

/-- The place after an atom. -/
def past (a : Atom) (p : Position) : Position :=
  { p with column := p.column + a.chars.length, offset := p.offset + a.size }

theorem begins (a : Atom) (cs : List Char) : Begins (a.chars ++ cs) := by
  obtain ⟨c, chars, same⟩ := List.exists_cons_of_ne_nil a.nonempty
  intro d first
  rw [same] at first
  cases first
  exact a.ink c (by simp [same])

theorem foldl_after (a : Atom) (p : Position) : a.chars.foldl Position.after p = a.past p :=
  foldl_after_ink p a.ink

/-- An atom is a scalar by itself if no further word belongs to it. -/
theorem plain?_eq (a : Atom) {margin : Nat} {p : Position} {rest : List Char} {words : Words}
    (flat : word? false rest = some ([], rest))
    (more : moreWords? false margin (rest.length + 1) ⟨rest, a.past p⟩ = some words)
    (alone : words.chars = []) :
    plain? false margin ⟨a.chars ++ rest, p⟩ = some (a.text, words.cursor, words.broken) := by
  have word := word?_append flat a.ink
  unfold plain?
  rw [word]
  split
  · next missing => cases missing
  · next empty => exact absurd (congrArg Prod.fst (Option.some.inj empty)) a.nonempty
  · next w rest' _ same =>
    cases same
    simp [Cursor.past, foldl_after, more, alone, foldPlain, fold_ink a.ink, text]

theorem plain?_colon (a : Atom) {rest : List Char} (ends : wordEnds rest) (margin : Nat)
    (p : Position) : plain? false margin ⟨a.chars ++ ':' :: rest, p⟩ =
      some (a.text, ⟨':' :: rest, a.past p⟩, false) := by
  have flat : word? false (':' :: rest) = some ([], ':' :: rest) := by
    cases rest with
    | nil => rfl
    | cons d rest =>
      have blank : (isBlank d || isBreak d) = true := by simpa [wordEnds] using ends
      rw [word?, if_neg (by decide), if_pos rfl]
      simp [blank]
  have more : moreWords? false margin ((':' :: rest).length + 1) ⟨':' :: rest, a.past p⟩ =
      some { chars := [], cursor := ⟨':' :: rest, a.past p⟩, broken := false } := by
    simp [moreWords?, gap?, isBlank, isBreak, Cursor.past]
  exact a.plain?_eq flat more rfl

theorem plain?_lineEnd (a : Atom) {rest : List Char} {margin n : Nat} (begins : Begins rest)
    (shallow : n < margin) (p : Position) :
    plain? false margin ⟨a.chars ++ '\n' :: (List.replicate n ' ' ++ rest), p⟩ =
      some (a.text, ⟨rest, .indented (p.line + 1) n⟩, true) := by
  have flat : word? false ('\n' :: (List.replicate n ' ' ++ rest)) =
      some ([], '\n' :: (List.replicate n ' ' ++ rest)) := rfl
  have gap : gap? margin false (a.past p) ('\n' :: (List.replicate n ' ' ++ rest)) =
      some ('\n' :: List.replicate n ' ', rest) := by
    simp [gap?, isBreak, gap?_spaces margin n true _ begins]
  have landed : ('\n' :: List.replicate n ' ').foldl Position.after (a.past p) =
      .indented (p.line + 1) n := by
    simp [foldl_after_spaces, Position.after, isBreak, past, Position.indented]
  have more (fuel : Nat) :
      moreWords? false margin (fuel + 1) ⟨'\n' :: (List.replicate n ' ' ++ rest), a.past p⟩ =
        some { chars := [], cursor := ⟨rest, .indented (p.line + 1) n⟩, broken := true } := by
    simp only [moreWords?, gap, Cursor.past, landed, Cursor.column]
    simp [shallow, isBreak, Position.indented]
  exact a.plain?_eq flat (more _) rfl

end Atom

end Chip8.Yaml
