import Mathlib.Data.List.Chain
import Mathlib.Data.List.TakeWhile
import Chip8.Proofs.Yaml.Outline

/-!
# The layout of outlines

An outline is read round by round. At the colon after a key two tokens go in before it, that of the
key and, where the key is the first of a block, that of the block; a value is read up to the next
line; and the approach to a line ends the blocks deeper than it. A key that is longer than
1024 bytes is an error, wherever it stands.

Results:
1. `Layout.scan?_key`, `Layout.scan?_ending`, `Layout.scan?_line`: what the rounds over a line read.
2. `Layout.scan?_long`: no line whose key is too long is read.
3. `tokens?_outline`: the tokens of an outline, or an error, if no line after a value is deeper.
-/

namespace Chip8.Yaml

namespace Tokens

theorem ext {ts us : Tokens} (same : ts.latest = us.latest) : ts = us := by
  obtain ⟨latest, count, h⟩ := ts
  obtain ⟨latest', count', h'⟩ := us
  cases same
  cases h
  cases h'
  rfl

def ofList (ts : List Token) : Tokens where
  latest := ts.reverse
  count := ts.length
  count_eq := by simp

@[simp] theorem toList_ofList (ts : List Token) : (ofList ts).toList = ts := by
  simp [ofList, toList]

@[simp] theorem count_ofList (ts : List Token) : (ofList ts).count = ts.length := rfl

@[simp] theorem push_ofList (ts : List Token) (t : Token) :
    (ofList ts).push t = ofList (ts ++ [t]) := by
  apply ext
  simp [push, ofList]

@[simp] theorem insert_ofList (ts us : List Token) (t : Token) :
    (ofList (ts ++ us)).insert ts.length t = ofList (ts ++ t :: us) := by
  apply ext
  simp [insert, ofList]

end Tokens

namespace Layout

/-- The layout at a cursor, outside flow collections. -/
def between (cursor : Cursor) (ts : List Token) (blocks : List Nat) (fresh : Bool)
    (candidate : Option Candidate) : Layout where
  cursor := cursor
  tokens := .ofList ts
  blocks := blocks
  fresh := fresh
  candidate := candidate

/-- The candidate of a key at a place. -/
def keyAt (ts : List Token) (blocks : List Nat) (p : Position) : Candidate where
  number := ts.length
  position := p
  required := blocks.head? = some p.column

variable {c cursor : Cursor} {ts : List Token} {blocks : List Nat} {fresh fresh' : Bool}
  {candidate : Option Candidate} {rest : List Char} {p : Position}

theorem closeBlocks_between (ends : Nat → Bool) :
    (between cursor ts blocks fresh candidate).closeBlocks ends =
      between cursor (ts ++ (blocks.takeWhile ends).map fun _ => .blockEnd)
        (blocks.dropWhile ends) fresh candidate := by
  have pushed (bs : List Nat) (us : List Token) :
      bs.foldl (fun ts _ => ts.push .blockEnd) (Tokens.ofList us)
        = .ofList (us ++ bs.map fun _ => .blockEnd) := by
    induction bs generalizing us with
    | nil => simp
    | cons b bs ih => simp [ih]
  simp [closeBlocks, between, inFlow, pushed]

/-- The blocks deeper than a place have ended there, whether the candidate is kept or given up. -/
theorem approach?_of_expire? {left? : Option Candidate}
    (expired : (between cursor ts blocks fresh' candidate).expire? =
      some (between cursor ts blocks fresh' left?))
    (skipped : c.skip false fresh = (cursor, fresh')) :
    (between c ts blocks fresh candidate).approach? =
      some (between cursor (ts ++ closing blocks cursor.column) (left blocks cursor.column) fresh'
        left?) := by
  have arrived : (between c ts blocks fresh candidate).approach? =
      (between cursor ts blocks fresh' candidate).expire?.map
        fun s => s.closeBlocks (s.cursor.column < ·) := by
    simp [approach?, between, inFlow, skipped]
  rw [arrived, expired]
  exact congrArg some (closeBlocks_between _)

theorem approach?_between (kept : ¬candidate.any (·.isStale cursor.position))
    (skipped : c.skip false fresh = (cursor, fresh')) :
    (between c ts blocks fresh candidate).approach? =
      some (between cursor (ts ++ closing blocks cursor.column) (left blocks cursor.column) fresh'
        candidate) := by
  refine approach?_of_expire? ?_ skipped
  simp only [expire?, between, kept]
  rfl

/-- At a place on a line that no block is deeper than, nothing ends. -/
theorem approach?_inside (skipped : c.skip false fresh = (cursor, fresh'))
    (kept : ¬candidate.any (·.isStale cursor.position))
    (inner : ∀ b ∈ blocks.head?, b ≤ cursor.column) :
    (between c ts blocks fresh candidate).approach? =
      some (between cursor ts blocks fresh' candidate) := by
  rw [approach?_between kept skipped, closing_of_le inner, left_of_le inner, List.append_nil]

theorem step?_of_begins {s : Layout} (more : s.cursor.rest ≠ []) (begins : Begins s.cursor.rest) :
    s.step? = s.plain? := by
  obtain ⟨c, cs, rest⟩ := List.exists_cons_of_ne_nil more
  have ink : isAtomChar c := begins c (by simp [rest])
  simp (disch := decide) [step?, rest, ne_of_isAtomChar ink, Cursor.atMarker,
    isMarker_of_isAtomChar ink, isIndicator_of_isAtomChar ink]

theorem step?_colon {s : Layout} (colon : s.cursor.rest = ':' :: rest) (ends : wordEnds rest) :
    s.step? = s.value? := by
  simp [step?, colon, Cursor.atMarker, isMarker, ends]

theorem plain?_key {key : Atom} (ends : wordEnds rest) :
    (between ⟨key.chars ++ ':' :: rest, p⟩ ts blocks true none).plain? =
      some (between ⟨':' :: rest, key.past p⟩ (ts ++ [key.token]) blocks false
        (some (keyAt ts blocks p))) := by
  have noted : (between ⟨key.chars ++ ':' :: rest, p⟩ ts blocks true none).note? =
      some (between ⟨key.chars ++ ':' :: rest, p⟩ ts blocks true
        (some (keyAt ts blocks p))) := by
    simp [note?, between, settle?, inFlow, Cursor.column, keyAt]
    rfl
  simp [plain?, noted]
  simp [between, inFlow, key.plain?_colon ends, emit, Atom.token]

theorem plain?_value {value : Atom} {n : Nat} (begins : Begins rest)
    (shallow : n < (between ⟨[], p⟩ ts blocks false none).margin) :
    (between ⟨value.chars ++ '\n' :: (List.replicate n ' ' ++ rest), p⟩ ts blocks false none).plain?
      = some (between ⟨rest, .indented (p.line + 1) n⟩
        (ts ++ [value.token]) blocks true none) := by
  have read := value.plain?_lineEnd begins shallow p
  simp only [margin, between] at read
  simp [plain?, note?, between, inFlow, margin, read, emit, Atom.token]

theorem openBlock_between {us : List Token} {column : Nat}
    (inner : ∀ b ∈ blocks.head?, b ≤ column) :
    (between cursor (ts ++ us) blocks fresh candidate).openBlock .blockMapping column ts.length =
      between cursor (ts ++ opening blocks column ++ us) (opened blocks column) fresh
        candidate := by
  cases blocks with
  | nil => simp [openBlock, between, inFlow, margin, opening, opened]
  | cons b blocks =>
    by_cases same : b = column
    · simp [openBlock, between, inFlow, margin, opening, opened, same]
    · have deeper : b + 1 ≤ column := Nat.lt_of_le_of_ne (inner b rfl) same
      simp [openBlock, between, inFlow, margin, opening, opened, same, deeper]

theorem value?_between {k : Candidate} {t : Token} (number : k.number = ts.length)
    (inner : ∀ b ∈ blocks.head?, b ≤ k.position.column) :
    (between ⟨':' :: rest, p⟩ (ts ++ [t]) blocks false (some k)).value? =
      some (between ⟨rest, p.after ':'⟩
        (ts ++ opening blocks k.position.column ++ [.key, t, .value])
        (opened blocks k.position.column) false none) := by
  have inserted : (between ⟨':' :: rest, p⟩ (ts ++ [t]) blocks false (some k)).value? =
      some { ((between ⟨':' :: rest, p⟩ (ts ++ [.key, t]) blocks false (some k)).openBlock
        .blockMapping k.position.column ts.length).take .value 1 false with
          candidate := none } := by
    simp [value?, between, number]
  rw [inserted, openBlock_between inner]
  simp [between, take, emit, Cursor.advanceBy, Cursor.past]

/-! ## Rounds -/

theorem scan?_round {s m t : Layout} (approach : s.approach? = some m) (more : m.cursor.rest ≠ [])
    (step : m.step? = some t) (fuel : Nat) : scan? (fuel + 1) s = scan? fuel t := by
  simp [scan?, approach, more, step]

theorem scan?_of_approach? {s : Layout} (approach : s.approach? = none) (fuel : Nat) :
    scan? fuel s = none := by
  cases fuel with
  | zero => rfl
  | succ fuel => simp [scan?, approach]

theorem scan?_of_step? {s m : Layout} (approach : s.approach? = some m) (more : m.cursor.rest ≠ [])
    (step : m.step? = none) (fuel : Nat) : scan? fuel s = none := by
  cases fuel with
  | zero => rfl
  | succ fuel => simp [scan?, approach, more, step]

theorem skip_colon (p : Position) : (Cursor.mk (':' :: rest) p).skip false fresh
    = (⟨':' :: rest, p⟩, fresh) := by
  simp [Cursor.skip, Cursor.skipFrom, isBreak, isByteOrderMark]

theorem scan?_key {s : Layout} {key : Atom}
    (approach : s.approach? = some (between ⟨key.chars ++ ':' :: rest, p⟩ ts blocks true none))
    (inner : ∀ b ∈ blocks.head?, b ≤ p.column) (ends : wordEnds rest) (short : key.size ≤ 1024) :
    ∃ q : Position, p.column ≤ q.column ∧ ∀ fuel, scan? (fuel + 2) s = scan? fuel
      (between ⟨rest, q⟩ (ts ++ opening blocks p.column ++ [.key, key.token, .value])
        (opened blocks p.column) false none) := by
  have kept : ¬(some (keyAt ts blocks p)).any (·.isStale (key.past p)) := by
    simp [keyAt, Candidate.isStale, Atom.past]
    omega
  have arrived : (between ⟨':' :: rest, key.past p⟩ (ts ++ [key.token]) blocks false
      (some (keyAt ts blocks p))).approach? = some (between ⟨':' :: rest, key.past p⟩
        (ts ++ [key.token]) blocks false (some (keyAt ts blocks p))) :=
    approach?_inside (skip_colon _) kept fun b among =>
      Nat.le_trans (inner b among) (Nat.le_add_right _ _)
  refine ⟨(key.past p).after ':', ?_, fun fuel => ?_⟩
  · simp [Position.after, isBreak, Atom.past]
    omega
  · rw [scan?_round approach (by simp [between])
        ((step?_of_begins (by simp [between]) (key.begins _)).trans (plain?_key ends)),
      scan?_round arrived (by simp [between])
        ((step?_colon rfl ends).trans (value?_between rfl inner))]
    rfl

/-- A colon too far from where its key began is an error, whether or not a key had to begin
there. -/
theorem scan?_long {s : Layout} {key : Atom}
    (approach : s.approach? = some (between ⟨key.chars ++ ':' :: rest, p⟩ ts blocks true none))
    (ends : wordEnds rest) (long : 1024 < key.size) (fuel : Nat) : scan? fuel s = none := by
  let m := between ⟨':' :: rest, key.past p⟩ (ts ++ [key.token]) blocks false
    (some (keyAt ts blocks p))
  have stale : (keyAt ts blocks p).isStale (key.past p) := by
    simp [keyAt, Candidate.isStale, Atom.past, long]
  have stuck (fuel : Nat) : scan? fuel m = none := by
    by_cases required : (keyAt ts blocks p).required
    · refine scan?_of_approach? ?_ fuel
      simp [m, approach?, between, inFlow, skip_colon, expire?, settle?, stale, required]
    · have given : (between ⟨':' :: rest, key.past p⟩ (ts ++ [key.token]) blocks false
          (some (keyAt ts blocks p))).expire? = some (between ⟨':' :: rest, key.past p⟩
            (ts ++ [key.token]) blocks false none) := by
        simp [between, expire?, settle?, stale, required]
      exact scan?_of_step? (approach?_of_expire? given (skip_colon _)) (by simp [between])
        ((step?_colon rfl ends).trans rfl) fuel
  cases fuel with
  | zero => rfl
  | succ fuel =>
    rw [scan?_round approach (by simp [between])
      ((step?_of_begins (by simp [between]) (key.begins _)).trans (plain?_key ends))]
    exact stuck fuel

/-! ## Lines -/

/-- What comes next, after blanks and line ends, is lines. -/
def Awaits (s : Layout) (ts : List Token) (blocks : List Nat) (ls : List Line) : Prop :=
  ∃ line, s.approach? =
    some (between ⟨flush ls, .indented line (firstColumn ls)⟩
      (ts ++ closing blocks (firstColumn ls)) (left blocks (firstColumn ls)) true none)

theorem awaits_of_skip {ls : List Line} {line : Nat} (skipped : c.skip false fresh =
    (⟨flush ls, .indented line (firstColumn ls)⟩, true)) :
    Awaits (between c ts blocks fresh none) ts blocks ls :=
  ⟨line, approach?_between (by simp) skipped⟩

/-- Where a line ends with the colon of a key, the next line is approached. -/
theorem awaits_lineEnd (ls : List Line) :
    Awaits (between ⟨'\n' :: outline ls, p⟩ ts blocks false none) ts blocks ls := by
  have skipped : (Cursor.mk ('\n' :: outline ls) p).skip false false =
      (⟨flush ls, .indented (p.line + 1) (firstColumn ls)⟩, true) := by
    rw [outline_eq]
    simp [Cursor.skip, Cursor.skipFrom, isBreak, Position.after, Position.indented,
      skipFrom_spaces true _ _ (begins_flush ls)]
  exact awaits_of_skip skipped

/-- A value is read over its line end up to the next line, if that is not deeper than its key. -/
theorem scan?_value (ts : List Token) {v : Atom} {ls : List Line} {column : Nat}
    (inner : blocks.head? = some column) (after : column ≤ p.column)
    (flat : firstColumn ls ≤ column) :
    ∃ t, (∀ fuel, scan? (fuel + 1)
        (between ⟨' ' :: (v.chars ++ '\n' :: outline ls), p⟩ ts blocks false none) = scan? fuel t) ∧
      Awaits t (ts ++ [v.token]) blocks ls := by
  have skipped : (Cursor.mk (' ' :: (v.chars ++ '\n' :: outline ls)) p).skip false false =
      (⟨v.chars ++ '\n' :: outline ls, p.after ' '⟩, false) := by
    simp [Cursor.skip, Cursor.skipFrom, isBreak, skipFrom_ink false _ (v.begins _)]
  have within : ∀ b ∈ blocks.head?, b ≤ (p.after ' ').column := by
    simp [inner, Position.after, isBreak]
    omega
  have shallow : firstColumn ls < (between ⟨[], p.after ' '⟩ ts blocks false none).margin := by
    obtain ⟨blocks', rfl⟩ := List.head?_eq_some_iff.mp inner
    exact Nat.lt_succ_of_le flat
  have step : (between ⟨v.chars ++ '\n' :: outline ls, p.after ' '⟩ ts blocks false none).step? =
      some (between ⟨flush ls, .indented ((p.after ' ').line + 1) (firstColumn ls)⟩
        (ts ++ [v.token]) blocks true none) := by
    rw [step?_of_begins (by simp [between]) (v.begins _), outline_eq]
    exact plain?_value (begins_flush ls) shallow
  exact ⟨_, scan?_round (approach?_inside skipped (by simp) within) (by simp [between]) step,
    awaits_of_skip (skipFrom_ink true _ (begins_flush ls))⟩

/-- The end of a line, after the colon of a key at a column. -/
theorem scan?_ending (ts : List Token) {l : Line} {ls : List Line} {column : Nat}
    (inner : blocks.head? = some column) (after : column ≤ p.column)
    (flat : l.value.isSome → firstColumn ls ≤ column) :
    ∃ n t, n ≤ l.ending.length ∧
      (∀ fuel, scan? (fuel + n) (between ⟨l.ending ++ outline ls, p⟩ ts blocks false none)
        = scan? fuel t) ∧
      Awaits t (ts ++ (l.value.map Atom.token).toList) blocks ls := by
  cases value : l.value with
  | none =>
    have ending : l.ending ++ outline ls = '\n' :: outline ls := by simp [Line.ending, value]
    rw [ending]
    exact ⟨0, _, Nat.zero_le _, fun _ => rfl, by simpa using awaits_lineEnd ls⟩
  | some v =>
    have ending : l.ending ++ outline ls = ' ' :: (v.chars ++ '\n' :: outline ls) := by
      simp [Line.ending, value]
    obtain ⟨t, round, awaits⟩ := scan?_value ts (v := v) inner after (flat (by simp [value]))
    rw [ending]
    exact ⟨1, t, by simp [Line.ending], round, awaits⟩

/-- Over a line no more rounds are made than it has characters. -/
theorem scan?_line {s : Layout} {l : Line} {ls : List Line} (awaits : Awaits s ts blocks (l :: ls))
    (short : l.key.size ≤ 1024) (flat : l.value.isSome → firstColumn ls ≤ l.indent) :
    ∃ n t, n ≤ l.text.length ∧ (∀ fuel, scan? (fuel + n) s = scan? fuel t) ∧
      Awaits t
        (ts ++ closing blocks l.indent ++ opening (left blocks l.indent) l.indent ++ l.tokens)
        (opened (left blocks l.indent) l.indent) ls := by
  obtain ⟨line, approach⟩ := awaits
  have inner : ∀ b ∈ (left blocks l.indent).head?, b ≤ l.indent := fun b among =>
    le_head?_left among
  rw [flush_cons] at approach
  obtain ⟨p, after, colon⟩ := scan?_key approach inner l.wordEnds_ending short
  obtain ⟨n, t, few, rounds, awaits⟩ := scan?_ending (p := p)
    (ts ++ closing blocks l.indent ++ opening (left blocks l.indent) l.indent ++
      [.key, l.key.token, .value]) (head?_opened (left blocks l.indent) l.indent) after flat
  refine ⟨n + 2, t, ?_, fun fuel => (colon (fuel + n)).trans (rounds fuel), ?_⟩
  · have positive : 0 < l.key.chars.length := List.length_pos_iff.mpr l.key.nonempty
    simp [Line.text, Line.body]
    omega
  · simpa [Line.tokens] using awaits

theorem finish?_between : (between cursor ts blocks fresh none).finish? =
    some (ts ++ blocks.map fun _ => .blockEnd) := by
  have all : blocks.takeWhile (fun _ => true) = blocks :=
    List.takeWhile_eq_self_iff.mpr fun _ _ => rfl
  rw [finish?, closeBlocks_between, all]
  simp [between, settle?]

theorem scan?_lines {ls : List Line} {s : Layout} (awaits : Awaits s ts blocks ls)
    (flat : ls.IsChain Line.Above) {fuel : Nat} (enough : (outline ls).length < fuel) :
    scan? fuel s =
      if ∀ l ∈ ls, l.key.size ≤ 1024 then some (ts ++ outlineTokens blocks ls) else none := by
  induction ls generalizing s ts blocks fuel with
  | nil =>
    obtain ⟨line, approach⟩ := awaits
    obtain ⟨fuel, rfl⟩ := Nat.exists_eq_add_one.mpr (Nat.zero_lt_of_lt enough)
    have ended : scan? (fuel + 1) s = (between ⟨[], .indented line 0⟩ (ts ++ closing blocks 0)
        (left blocks 0) true none).finish? := by
      rw [scan?, approach]
      rfl
    have all : closing blocks 0 ++ (left blocks 0).map (fun _ => Token.blockEnd) =
        blocks.map fun _ => .blockEnd := by
      rw [closing, left, ← List.map_append, List.takeWhile_append_dropWhile]
    rw [ended, finish?_between, List.append_assoc, all]
    simp [outlineTokens]
  | cons l ls ih =>
    -- The fuel is more than the characters left, so some is left after the rounds over a line.
    obtain ⟨above, flat⟩ := List.isChain_cons.mp flat
    have long : (outline (l :: ls)).length = l.text.length + (outline ls).length := by
      simp [outline]
    by_cases short : l.key.size ≤ 1024
    · have next : l.value.isSome → firstColumn ls ≤ l.indent := by
        intro valued
        cases ls with
        | nil => exact Nat.zero_le _
        | cons l' ls => exact above l' rfl valued
      obtain ⟨n, t, few, rounds, awaits⟩ := scan?_line awaits short next
      obtain ⟨fuel, rfl⟩ : ∃ rest, fuel = rest + n := ⟨fuel - n, by omega⟩
      rw [rounds, ih awaits flat (by omega)]
      simp [outlineTokens, short]
    · obtain ⟨line, approach⟩ := awaits
      rw [flush_cons] at approach
      simp [scan?_long approach l.wordEnds_ending (Nat.lt_of_not_le short), short]

end Layout

/-- The tokens of an outline; no key in it may be longer than 1024 bytes. -/
theorem tokens?_outline {ls : List Line} (flat : ls.IsChain Line.Above) :
    tokens? (outline ls) =
      if ∀ l ∈ ls, l.key.size ≤ 1024 then some (outlineTokens [] ls) else none := by
  have printable : (outline ls).all isPrintable := by
    rw [List.all_eq_true]
    intro c among
    rcases mem_outline among with ink | rfl | rfl | rfl
    · exact isPrintable_of_isAtomChar ink
    all_goals decide
  have same : uniform (outline ls) = outline ls := by
    refine uniform_eq_self fun c among => ?_
    rcases mem_outline among with ink | rfl | rfl | rfl
    · exact ⟨ne_of_isAtomChar ink (by decide), toNat_ne_of_isAtomChar ink (by decide)⟩
    all_goals decide
  have skipped : (Cursor.mk (outline ls) {}).skip false true =
      (⟨flush ls, .indented 0 (firstColumn ls)⟩, true) := by
    rw [outline_eq]
    simpa [Position.indented, Cursor.skip] using
      skipFrom_spaces true {} (firstColumn ls) (begins_flush ls)
  have start : ({ cursor := { rest := outline ls } } : Layout) =
      .between ⟨outline ls, {}⟩ [] [] true none := rfl
  rw [tokens?, if_pos printable, same, start,
    Layout.scan?_lines (Layout.awaits_of_skip skipped) flat (Nat.lt_succ_self _)]
  simp

end Chip8.Yaml
