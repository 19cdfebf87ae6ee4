import Chip8.Proofs.Yaml.Format

/-!
# Decoding configurations

What a configuration file says, for every document of two levels in any format that reads such
documents entry by entry: which documents are configurations, and of what profile. Only what stands
under `quirks` for the two flags counts.

Results:
1. `ofBytes?_eq_some_iff`: a document describes a profile if it is a configuration, and then the
   profile that its entries say.
2. `Agree.ofBytes?_eq`: documents in which decoding finds the same describe the same.
3. `Reordered.agree`, `agree_known`: the order of entries and entries of other keys do not matter.
4. `ofBytes?_written`: what is written for a profile describes it.
5. `documents_decoded_exactly` states all of this together.
-/

namespace Chip8.Configuration

open Yaml

/-! ## What a document says -/

/-- The values of all entries with a key, in order. -/
def valuesOf {α : Type} (key : String) (es : List (Atom × α)) : List α :=
  (es.filter (·.1.text = key)).map Prod.snd

def advanceKey : String := "load_store_increment_index"

def shiftKey : String := "shift_copies_vy"

theorem valuesOf_cons {α : Type} (key : String) (e : Atom × α) (es : List (Atom × α)) :
    valuesOf key (e :: es) =
      if e.1.text = key then e.2 :: valuesOf key es else valuesOf key es := by
  by_cases named : e.1.text = key <;> simp [valuesOf, named]

/-- The texts that entries give a flag. -/
def textsOf (flag : String) (es : List (Atom × Atom)) : List String :=
  (valuesOf flag es).map Atom.text

/-- A flag is given at most once, and as a truth value. -/
def Legible (texts : List String) : Prop :=
  texts.length ≤ 1 ∧ ∀ text ∈ texts, text ∈ onTexts ++ offTexts

instance (texts : List String) : Decidable (Legible texts) := inferInstanceAs (Decidable (_ ∧ _))

/-- Whether a flag is given as true. -/
def isOn (texts : List String) : Bool := texts.any (· ∈ onTexts)

/-- The texts that a document gives a flag. -/
def flagTexts (flag : String) (m : Mapping) : List String :=
  textsOf flag ((valuesOf "quirks" m).flatMap Content.entries)

/-- What a document must be like to be a configuration. -/
structure IsConfiguration (m : Mapping) : Prop where
  once : (valuesOf "quirks" m).length ≤ 1
  block : ∀ c ∈ valuesOf "quirks" m, ∃ b, c = .block b
  legible : ∀ flag ∈ [advanceKey, shiftKey], Legible (flagTexts flag m)

/-- The profile that a document describes if it is a configuration. -/
def profileOf (m : Mapping) : Profile where
  advanceIndex := isOn (flagTexts advanceKey m)
  shiftSecond := isOn (flagTexts shiftKey m)

/-! ## Records -/

section Records

variable {Tree : Type} {format : Format Tree} {tree : Tree} {names : List String} {α : Type}
  {IsValue : α → Tree → Prop} {es : List (Atom × α)} {entries : List (String × Tree)}

theorem countP_eq_length
    (shown : List.Forall₂ (fun e entry => entry.1 = e.1.text ∧ IsValue e.2 entry.2) es entries)
    (key : String) : entries.countP (·.1 = key) = (valuesOf key es).length := by
  induction shown with
  | nil => rfl
  | @cons e entry _ _ first _ ih =>
    rw [List.countP_cons, valuesOf_cons, ih, first.1]
    by_cases named : e.1.text = key <;> simp [named]

theorem rel_lookup
    (shown : List.Forall₂ (fun e entry => entry.1 = e.1.text ∧ IsValue e.2 entry.2) es entries)
    (key : String) : Option.Rel IsValue (valuesOf key es).head? (entries.lookup key) := by
  induction shown with
  | nil => exact .none
  | @cons e entry _ _ first _ ih =>
    obtain ⟨name, value⟩ := entry
    obtain ⟨rfl, isValue⟩ := first
    rw [valuesOf_cons, List.lookup_cons]
    by_cases named : e.1.text = key
    · rw [if_pos named, beq_iff_eq.mpr named.symm]
      exact .some isValue
    · rw [if_neg named, beq_false_of_ne (Ne.symm named)]
      exact ih

/-- The fields of a record, from the values of the entries that are named for them. -/
theorem fields?_cases (collects : format.Collects) (mapping : format.IsMapping IsValue es tree)
    (names : List String) :
    (fields? format names tree = none ∧ ∃ name ∈ names, 1 < (valuesOf name es).length) ∨
      ∃ fields, fields? format names tree = some fields ∧
        ∀ name ∈ names, (valuesOf name es).length ≤ 1 ∧
          Option.Rel IsValue (valuesOf name es).head? (fields name) := by
  obtain ⟨entries, read, shown⟩ := mapping
  have given : fields? format names tree = format.collect? names entries := by
    rw [fields?, read, Option.bind_some]
  rw [given]
  have refused := @Format.Collects.refused_iff _ _ collects names entries
  simp only [countP_eq_length shown] at refused
  cases collected : format.collect? names entries with
  | none => exact .inl ⟨rfl, refused.mp collected⟩
  | some fields =>
    have once : ¬∃ name ∈ names, 1 < (valuesOf name es).length := fun repeated => by
      cases collected.symm.trans (refused.mpr repeated)
    refine .inr ⟨fields, rfl, fun name among => ⟨?_, ?_⟩⟩
    · exact Nat.le_of_not_lt fun twice => once ⟨name, among, twice⟩
    · rw [collects.value collected name among]
      exact rel_lookup shown name

end Records

/-! ## Flags -/

section Decoding

variable {Tree : Type} {format : Format Tree} {tree : Tree} {es : List (Atom × Atom)}
  {p : Profile} {m : Mapping}

theorem truth?_eq_some_iff {text : String} {on : Bool} (scalar : format.IsScalar text tree) :
    format.truth? tree = some on ↔ text ∈ onTexts ++ offTexts ∧ on = decide (text ∈ onTexts) := by
  rw [scalar.truth]
  by_cases yes : text ∈ onTexts
  · simp [yes, eq_comm]
  · by_cases no : text ∈ offTexts <;> simp [yes, no, eq_comm]

theorem flag_eq_some_iff {flag : String} {value : Option Tree} {on : Bool}
    (once : (valuesOf flag es).length ≤ 1)
    (shown : Option.Rel (fun v => format.IsScalar v.text) (valuesOf flag es).head? value) :
    field? false format.truth? value = some on ↔
      Legible (textsOf flag es) ∧ on = isOn (textsOf flag es) := by
  rw [textsOf]
  generalize valuesOf flag es = vs at once shown
  match vs with
  | [] =>
    cases shown
    simp [field?, Legible, isOn, eq_comm]
  | [v] =>
    cases shown with
    | some scalar => simp [field?, truth?_eq_some_iff scalar, Legible, isOn]
  | _ :: _ :: _ => simp at once

theorem profile?_eq_some_iff (collects : format.Collects)
    (mapping : format.IsMapping (fun v => format.IsScalar v.text) es tree) :
    profile? format tree = some p ↔
      (∀ flag ∈ [advanceKey, shiftKey], Legible (textsOf flag es)) ∧
        p = ⟨isOn (textsOf advanceKey es), isOn (textsOf shiftKey es)⟩ := by
  have read : profile? format tree = (fields? format [advanceKey, shiftKey] tree).bind fun fields =>
      (field? false format.truth? (fields advanceKey)).bind fun advanceIndex =>
        (field? false format.truth? (fields shiftKey)).bind fun shiftSecond =>
          some { advanceIndex, shiftSecond } := rfl
  rw [read]
  rcases fields?_cases collects mapping [advanceKey, shiftKey] with
    ⟨refused, flag, isFlag, twice⟩ | ⟨fields, given, values⟩
  · have illegible : ¬∀ flag ∈ [advanceKey, shiftKey], Legible (textsOf flag es) := by
      intro legible
      have once := (legible flag isFlag).1
      rw [textsOf, List.length_map] at once
      exact absurd twice (Nat.not_lt.mpr once)
    rw [refused, Option.bind_none]
    exact ⟨nofun, fun both => absurd both.1 illegible⟩
  · obtain ⟨advanceOnce, advance⟩ := values advanceKey (by simp)
    obtain ⟨shiftOnce, shift⟩ := values shiftKey (by simp)
    rw [given, Option.bind_some]
    simp only [Option.bind_eq_some_iff, flag_eq_some_iff advanceOnce advance,
      flag_eq_some_iff shiftOnce shift, Option.some.injEq]
    constructor
    · rintro ⟨_, ⟨first, rfl⟩, _, ⟨second, rfl⟩, rfl⟩
      exact ⟨by simpa using ⟨first, second⟩, rfl⟩
    · rintro ⟨legible, rfl⟩
      exact ⟨_, ⟨legible advanceKey (by simp), rfl⟩, _, ⟨legible shiftKey (by simp), rfl⟩, rfl⟩

/-! ## Documents -/

theorem profile?_scalar {v : Atom} (shown : format.Shows (.scalar v) tree) :
    profile? format tree = none := by
  have entries : format.entries? tree = none := Format.IsScalar.entries shown
  simp [profile?, fields?, entries]

theorem ofTree?_eq_some_iff (collects : format.Collects)
    (mapping : format.IsMapping format.Shows m tree) :
    ofTree? format tree = some p ↔ IsConfiguration m ∧ p = profileOf m := by
  have read : ofTree? format tree = (fields? format ["quirks"] tree).bind fun fields =>
      field? {} (profile? format) (fields "quirks") := rfl
  rw [read]
  rcases fields?_cases collects mapping ["quirks"] with
    ⟨refused, name, quirks, twice⟩ | ⟨fields, given, values⟩
  · have several : ¬IsConfiguration m := fun described => by
      rw [List.mem_singleton.mp quirks] at twice
      exact absurd twice (Nat.not_lt.mpr described.once)
    simp [refused, several]
  · obtain ⟨once, shown⟩ := values "quirks" (by simp)
    rw [given, Option.bind_some]
    generalize fields "quirks" = value at shown
    match quirks : valuesOf "quirks" m with
    | [] =>
      rw [quirks] at shown
      cases shown
      have texts (flag : String) : flagTexts flag m = [] := by
        rw [flagTexts, quirks]
        rfl
      have described : IsConfiguration m :=
        ⟨once, by simp [quirks], by simp [texts, Legible]⟩
      simp [field?, described, profileOf, texts, isOn, eq_comm]
    | [.scalar v] =>
      rw [quirks] at shown
      cases shown with
      | some scalar =>
        have refused : ¬IsConfiguration m := fun described => by
          obtain ⟨b, same⟩ := described.block (.scalar v) (by simp [quirks])
          cases same
        simp [field?, profile?_scalar scalar, refused]
    | [.block b] =>
      rw [quirks] at shown
      cases shown with
      | some block =>
        have texts (flag : String) : flagTexts flag m = textsOf flag b.entries := by
          simp [flagTexts, quirks, Content.entries]
        have described : IsConfiguration m ↔
            ∀ flag ∈ [advanceKey, shiftKey], Legible (textsOf flag b.entries) := by
          simp only [← texts]
          exact ⟨IsConfiguration.legible, fun legible => ⟨once, by simp [quirks], legible⟩⟩
        rw [field?, profile?_eq_some_iff collects block, described, profileOf, texts, texts]
    | _ :: _ :: _ => simp [quirks] at once

theorem ofBytes?_eq_some_iff (collects : format.Collects) (reads : format.Reads m) :
    ofBytes? format m.bytes = some p ↔ IsConfiguration m ∧ p = profileOf m := by
  obtain ⟨tree, read, mapping⟩ := reads
  rw [ofBytes?, read, Option.bind_some, ofTree?_eq_some_iff collects mapping]

end Decoding

/-! ## Order -/

/-- Contents with the same entries in any order, however they are indented. -/
inductive Shuffled : Content → Content → Prop
  | scalar (v : Atom) : Shuffled (.scalar v) (.scalar v)
  | block {b b' : Block} (entries : b.entries.Perm b'.entries) : Shuffled (.block b) (.block b')

/-- Documents with the same entries in any order, those of blocks included. -/
def Reordered (m m' : Mapping) : Prop :=
  ∃ middle, List.Perm m middle ∧
    List.Forall₂ (fun e e' => e.1 = e'.1 ∧ Shuffled e.2 e'.2) middle m'

/-- Documents in which decoding finds the same. -/
structure Agree (m m' : Mapping) : Prop where
  number : (valuesOf "quirks" m).length = (valuesOf "quirks" m').length
  block : (∀ c ∈ valuesOf "quirks" m, ∃ b, c = .block b) ↔
    ∀ c ∈ valuesOf "quirks" m', ∃ b, c = .block b
  texts : ∀ flag ∈ [advanceKey, shiftKey], (flagTexts flag m).Perm (flagTexts flag m')

theorem Legible.congr {texts texts' : List String} (same : texts.Perm texts') :
    Legible texts ↔ Legible texts' := by
  simp only [Legible, same.length_eq, same.mem_iff]

theorem isOn_congr {texts texts' : List String} (same : texts.Perm texts') :
    isOn texts = isOn texts' := by
  rw [Bool.eq_iff_iff]
  simp only [isOn, List.any_eq_true, same.mem_iff]

namespace Agree

variable {m m' m'' : Mapping}

theorem trans (first : Agree m m') (second : Agree m' m'') : Agree m m'' where
  number := first.number.trans second.number
  block := first.block.trans second.block
  texts flag known := (first.texts flag known).trans (second.texts flag known)

theorem profileOf_eq (agree : Agree m m') : profileOf m = profileOf m' := by
  rw [profileOf, profileOf, isOn_congr (agree.texts advanceKey (by simp)),
    isOn_congr (agree.texts shiftKey (by simp))]

theorem isConfiguration_iff (agree : Agree m m') : IsConfiguration m ↔ IsConfiguration m' := by
  have legible : (∀ flag ∈ [advanceKey, shiftKey], Legible (flagTexts flag m)) ↔
      ∀ flag ∈ [advanceKey, shiftKey], Legible (flagTexts flag m') :=
    forall₂_congr fun flag known => Legible.congr (agree.texts flag known)
  constructor
  · rintro ⟨once, block, flags⟩
    exact ⟨agree.number ▸ once, agree.block.mp block, legible.mp flags⟩
  · rintro ⟨once, block, flags⟩
    exact ⟨agree.number ▸ once, agree.block.mpr block, legible.mpr flags⟩

theorem ofBytes?_eq {Tree : Type} {format : Format Tree} (agree : Agree m m')
    (collects : format.Collects) (reads : format.Reads m) (reads' : format.Reads m') :
    ofBytes? format m'.bytes = ofBytes? format m.bytes := by
  ext p
  rw [ofBytes?_eq_some_iff collects reads', ofBytes?_eq_some_iff collects reads,
    agree.isConfiguration_iff, agree.profileOf_eq]

end Agree

theorem agree_of_perm {m m' : Mapping} (same : List.Perm m m') : Agree m m' := by
  have values : (valuesOf "quirks" m).Perm (valuesOf "quirks" m') := (same.filter _).map _
  refine ⟨values.length_eq, ?_, fun flag _ => ?_⟩
  · simp only [values.mem_iff]
  · exact (((values.flatMap_right _).filter _).map _).map _

theorem perm_flatMap {α β : Type} {R : α → α → Prop} {f : α → List β} {as bs : List α}
    (related : List.Forall₂ R as bs) (perm : ∀ {a b}, R a b → (f a).Perm (f b)) :
    (as.flatMap f).Perm (bs.flatMap f) := by
  induction related with
  | nil => exact .refl _
  | cons first _ ih =>
    rw [List.flatMap_cons, List.flatMap_cons]
    exact (perm first).append ih

theorem forall₂_valuesOf {m m' : Mapping} (key : String)
    (same : List.Forall₂ (fun e e' => e.1 = e'.1 ∧ Shuffled e.2 e'.2) m m') :
    List.Forall₂ Shuffled (valuesOf key m) (valuesOf key m') := by
  induction same with
  | nil => exact .nil
  | @cons e e' _ _ first _ ih =>
    obtain ⟨same, shuffled⟩ := first
    rw [valuesOf_cons, valuesOf_cons, same]
    split
    · exact .cons shuffled ih
    · exact ih

theorem Shuffled.entries {c c' : Content} (shuffled : Shuffled c c') :
    c.entries.Perm c'.entries := by
  cases shuffled with
  | scalar v => exact .refl _
  | block entries => exact entries

theorem forall_block_iff {cs cs' : List Content} (shuffled : List.Forall₂ Shuffled cs cs') :
    (∀ c ∈ cs, ∃ b, c = .block b) ↔ ∀ c ∈ cs', ∃ b, c = .block b := by
  induction shuffled with
  | nil => simp
  | cons first _ ih => cases first <;> simp [ih]

theorem agree_of_forall₂ {m m' : Mapping}
    (same : List.Forall₂ (fun e e' => e.1 = e'.1 ∧ Shuffled e.2 e'.2) m m') : Agree m m' := by
  have values := forall₂_valuesOf "quirks" same
  refine ⟨values.length_eq, ?_, fun flag _ => ?_⟩
  · exact forall_block_iff values
  · exact (((perm_flatMap values Shuffled.entries).filter _).map _).map _

theorem Reordered.agree {m m' : Mapping} (same : Reordered m m') : Agree m m' := by
  obtain ⟨middle, perm, shuffled⟩ := same
  exact (agree_of_perm perm).trans (agree_of_forall₂ shuffled)

/-! ## Other entries -/

/-- A block without the entries of keys that are no flags. -/
def knownContent : Content → Content
  | .scalar v => .scalar v
  | .block b =>
    .block { b with entries := b.entries.filter (·.1.text ∈ [advanceKey, shiftKey]) }

/-- A document without the entries whose keys are not known. -/
def known (m : Mapping) : Mapping :=
  (m.filter (·.1.text = "quirks")).map fun e => (e.1, knownContent e.2)

theorem valuesOf_filter {α : Type} {key : String} {keys : List String} (listed : key ∈ keys)
    (es : List (Atom × α)) : valuesOf key (es.filter (·.1.text ∈ keys)) = valuesOf key es := by
  induction es with
  | nil => rfl
  | cons e es ih =>
    by_cases named : e.1.text = key
    · simp [valuesOf_cons, named, listed, ih]
    · by_cases kept : e.1.text ∈ keys <;> simp [valuesOf_cons, named, kept, ih]

theorem valuesOf_known (m : Mapping) :
    valuesOf "quirks" (known m) = (valuesOf "quirks" m).map knownContent := by
  simp [valuesOf, known, List.filter_map, Function.comp_def]

theorem agree_known (m : Mapping) : Agree m (known m) := by
  have entries (c : Content) :
      (knownContent c).entries = c.entries.filter (·.1.text ∈ [advanceKey, shiftKey]) := by
    cases c <;> rfl
  refine ⟨?_, ?_, fun flag isFlag => ?_⟩
  · simp [valuesOf_known]
  · have block (c : Content) : (∃ b, knownContent c = .block b) ↔ ∃ b, c = .block b := by
      cases c <;> simp [knownContent]
    simp [valuesOf_known, block]
  · have same : flagTexts flag (known m) = flagTexts flag m := by
      have kept : ((valuesOf "quirks" m).map knownContent).flatMap Content.entries =
          ((valuesOf "quirks" m).flatMap Content.entries).filter
            (·.1.text ∈ [advanceKey, shiftKey]) := by
        simp [List.flatMap_map, List.filter_flatMap, entries]
      rw [flagTexts, flagTexts, valuesOf_known, kept, textsOf, valuesOf_filter isFlag, textsOf]
    rw [same]

/-! ## Writing -/

def quirksAtom : Atom := { chars := "quirks".toList }
def advanceAtom : Atom := { chars := advanceKey.toList }
def shiftAtom : Atom := { chars := shiftKey.toList }

def flagAtom : Bool → Atom
  | true => { chars := "true".toList }
  | false => { chars := "false".toList }

/-- The document of a profile. -/
def written (p : Profile) : Mapping :=
  [(quirksAtom, .block ⟨2, by decide,
    [(advanceAtom, flagAtom p.advanceIndex), (shiftAtom, flagAtom p.shiftSecond)]⟩)]

/-- A truth value as it is written. -/
def flagText (flag : Bool) : String := if flag then "true" else "false"

/-- The configuration of a profile. -/
def render (p : Profile) : String :=
  "quirks:\n  load_store_increment_index: " ++ flagText p.advanceIndex
    ++ "\n  shift_copies_vy: " ++ flagText p.shiftSecond ++ "\n"

theorem text_written (p : Profile) : (written p).text = render p := by
  obtain ⟨advance, shift⟩ := p
  cases advance <;> cases shift <;> decide

theorem legible_flagAtom (flag : Bool) : Legible [(flagAtom flag).text] := by
  cases flag <;> decide

theorem isOn_flagAtom (flag : Bool) : isOn [(flagAtom flag).text] = flag := by
  cases flag <;> decide

theorem flagTexts_written (p : Profile) :
    flagTexts advanceKey (written p) = [(flagAtom p.advanceIndex).text] ∧
      flagTexts shiftKey (written p) = [(flagAtom p.shiftSecond).text] :=
  ⟨rfl, rfl⟩

theorem isConfiguration_written (p : Profile) : IsConfiguration (written p) where
  once := Nat.le_refl 1
  block c among := by
    have block : c ∈ [_] := among
    exact ⟨_, List.mem_singleton.mp block⟩
  legible := by simp [flagTexts_written p, legible_flagAtom]

theorem profileOf_written (p : Profile) : profileOf (written p) = p := by
  simp [profileOf, flagTexts_written p, isOn_flagAtom]

theorem ofBytes?_written {Tree : Type} {format : Format Tree} {p : Profile}
    (collects : format.Collects) (reads : format.Reads (written p)) :
    ofBytes? format (written p).bytes = some p := by
  rw [ofBytes?_eq_some_iff collects reads]
  exact ⟨isConfiguration_written p, (profileOf_written p).symm⟩

/-! ## Files -/

/-- In a format that collects the fields of records by name and reads these documents entry by
entry, a document describes a profile if the mapping of flags is written at most once, and as a
mapping, and in it either flag at most once, and as a truth value. A flag is then on if it is
written as true. So the order of entries does not matter, nor do entries of other keys, and the
configuration that is written for a profile describes it. -/
theorem documents_decoded_exactly {Tree : Type} {format : Format Tree}
    (collects : format.Collects) {m : Mapping} (reads : format.Reads m) :
    (∀ p, ofBytes? format m.bytes = some p ↔ IsConfiguration m ∧ p = profileOf m) ∧
    (∀ m', Reordered m m' → format.Reads m' →
      ofBytes? format m'.bytes = ofBytes? format m.bytes) ∧
    (format.Reads (known m) → ofBytes? format (known m).bytes = ofBytes? format m.bytes) ∧
    ∀ p, (written p).text = render p ∧
      (format.Reads (written p) → ofBytes? format (written p).bytes = some p) := by
  refine ⟨fun p => ofBytes?_eq_some_iff collects reads, fun m' same reads' => ?_,
    fun reads' => ?_, fun p => ⟨text_written p, ofBytes?_written collects⟩⟩
  · exact same.agree.ofBytes?_eq collects reads reads'
  · exact (agree_known m).ofBytes?_eq collects reads reads'

/-- A key that is no flag. -/
def strayAtom : Atom := { chars := ['x'] }

/-- A document with repeated keys that are no flags, at both levels. -/
def crowded : Mapping :=
  [(strayAtom, .scalar (flagAtom true)),
    (quirksAtom, .block ⟨4, by decide,
      [(strayAtom, flagAtom true),
        (shiftAtom, { chars := "TRUE".toList }),
        (strayAtom, quirksAtom)]⟩),
    (strayAtom, .scalar { chars := ['0', '_'] })]

/-- The same entries the other way round, and less indented. -/
def crowdedBack : Mapping :=
  [(strayAtom, .scalar { chars := ['0', '_'] }),
    (quirksAtom, .block ⟨1, by decide,
      [(strayAtom, quirksAtom),
        (shiftAtom, { chars := "TRUE".toList }),
        (strayAtom, flagAtom true)]⟩),
    (strayAtom, .scalar (flagAtom true))]

/-- The documents that `Yaml.format` reads are such. -/
theorem documents_decoded_exactly_crowded :
    (Yaml.format.Collects ∧ Yaml.format.Reads crowded) ∧
    (IsConfiguration crowded ∧
      ofBytes? Yaml.format crowded.bytes = some { shiftSecond := true }) ∧
    (Reordered crowded crowdedBack ∧ Yaml.format.Reads crowdedBack ∧
      ofBytes? Yaml.format crowdedBack.bytes = some { shiftSecond := true }) ∧
    (Yaml.format.Reads (known crowded) ∧
      ofBytes? Yaml.format (known crowded).bytes = some { shiftSecond := true }) ∧
    Yaml.format.Reads (written { advanceIndex := true }) ∧
      ofBytes? Yaml.format (written { advanceIndex := true }).bytes =
        some { advanceIndex := true } := by
  have reads : Yaml.format.Reads crowded := reads_iff.mpr (by decide)
  have readsBack : Yaml.format.Reads crowdedBack := reads_iff.mpr (by decide)
  have readsKnown : Yaml.format.Reads (known crowded) := reads_iff.mpr (by decide)
  have readsWritten : Yaml.format.Reads (written { advanceIndex := true }) :=
    reads_iff.mpr (by decide)
  obtain ⟨decodes, reordered, spared, writes⟩ := documents_decoded_exactly collects_format reads
  have described : IsConfiguration crowded := by
    refine ⟨by decide, fun c among => ?_, by decide⟩
    have block : c ∈ [_] := among
    exact ⟨_, List.mem_singleton.mp block⟩
  have same : Reordered crowded crowdedBack := by
    refine ⟨crowded.reverse, (List.reverse_perm _).symm, ?_⟩
    exact .cons ⟨rfl, .scalar _⟩ (.cons ⟨rfl, .block (List.reverse_perm _).symm⟩
      (.cons ⟨rfl, .scalar _⟩ .nil))
  have meant : ofBytes? Yaml.format crowded.bytes = some { shiftSecond := true } :=
    (decodes _).mpr ⟨described, by decide⟩
  exact ⟨⟨collects_format, reads⟩, ⟨described, meant⟩,
    ⟨same, readsBack, (reordered _ same readsBack).trans meant⟩,
    ⟨readsKnown, (spared readsKnown).trans meant⟩,
    readsWritten, (writes _).2 readsWritten⟩

end Chip8.Configuration
