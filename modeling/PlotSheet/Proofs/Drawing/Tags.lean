import PlotSheet.Drawing.Svg

/-!
# Reading tags

A text of tags is scanned character by character, without regard to how it was written: tags of an
opening, a closing and an empty element, with attributes in double quotes, and line breaks between
the tags. A scan of two texts after each other is a scan of the first and then of the second, so
that what is scanned is put together from scans of names, values, attributes and elements.

## Main definitions

* `Element`, `Tag`: what tags say
* `Scanner`, `Scanner.step`, `Scanner.scan`: the scan of a text
* `readTags`: the tags of a whole text
* `IsPlain`, `IsName`: values that need no escape, and names

## Main results

* `scan_attributes`: attributes that were written are scanned
* `scan_element`: an element that was written is scanned as an empty one
-/

namespace PlotSheet.Drawing

/-- A name with attributes. -/
structure Element where
  name : List Char
  attributes : List (List Char × List Char)
  deriving DecidableEq, Repr

/-- A tag: it opens an element, is all of an empty one, or closes one. -/
inductive Tag where
  | opening (e : Element)
  | empty (e : Element)
  | closing (name : List Char)
  deriving DecidableEq, Repr

/-- Where in a text a scan is. -/
inductive Place where
  | outside
  /-- Behind a less-than sign. -/
  | opened
  | closing (name : List Char)
  /-- Behind the name of an element or one of its attributes. -/
  | inside (e : Element)
  | attribute (e : Element) (name : List Char)
  /-- Behind an equals sign. -/
  | equals (e : Element) (name : List Char)
  | value (e : Element) (name value : List Char)
  /-- Behind the slash of an empty element. -/
  | slash (e : Element)

/-- The tags so far, and where the scan is. -/
structure Scanner where
  tags : List Tag
  place : Place

/-- The characters of names. -/
def isNameCharacter (c : Char) : Bool :=
  c.isAlphanum || c == '-'

namespace Scanner

/-- The scan of one more character. -/
def step (s : Scanner) (c : Char) : Option Scanner :=
  match s.place with
  | .outside =>
    if c = '<' then some ⟨s.tags, .opened⟩
    else if c = '\n' then some s
    else none
  | .opened =>
    if c = '/' then some ⟨s.tags, .closing []⟩
    else if isNameCharacter c then some ⟨s.tags, .inside ⟨[c], []⟩⟩
    else none
  | .closing name =>
    if isNameCharacter c then some ⟨s.tags, .closing (name ++ [c])⟩
    else if c = '>' then some ⟨s.tags ++ [.closing name], .outside⟩
    else none
  | .inside e =>
    if c = ' ' then some ⟨s.tags, .attribute e []⟩
    else if c = '/' then some ⟨s.tags, .slash e⟩
    else if c = '>' then some ⟨s.tags ++ [.opening e], .outside⟩
    else if e.attributes.isEmpty && isNameCharacter c then
      some ⟨s.tags, .inside ⟨e.name ++ [c], []⟩⟩
    else none
  | .attribute e name =>
    if isNameCharacter c then some ⟨s.tags, .attribute e (name ++ [c])⟩
    else if c = '=' then some ⟨s.tags, .equals e name⟩
    else none
  | .equals e name =>
    if c = '"' then some ⟨s.tags, .value e name []⟩ else none
  | .value e name value =>
    if c = '"' then some ⟨s.tags, .inside ⟨e.name, e.attributes ++ [(name, value)]⟩⟩
    else if c = '<' then none
    else some ⟨s.tags, .value e name (value ++ [c])⟩
  | .slash e =>
    if c = '>' then some ⟨s.tags ++ [.empty e], .outside⟩ else none

/-- The scan of a text. -/
def scan (s : Scanner) (text : List Char) : Option Scanner :=
  text.foldlM step s

end Scanner

/-- The tags of a whole text. -/
def readTags (text : List Char) : Option (List Tag) :=
  match Scanner.scan ⟨[], .outside⟩ text with
  | some ⟨tags, .outside⟩ => some tags
  | _ => none

/-! ## Scanning in parts -/

namespace Scanner

theorem scan_cons (s : Scanner) (c : Char) (text : List Char) :
    scan s (c :: text) = (step s c).bind fun t => scan t text := rfl

theorem scan_append (s : Scanner) (a b : List Char) :
    scan s (a ++ b) = (scan s a).bind fun t => scan t b :=
  List.foldlM_append

/-- A scan goes on behind a text that was scanned. -/
theorem scan_append_of_scan {s t : Scanner} {a : List Char} (h : scan s a = some t)
    (b : List Char) : scan s (a ++ b) = scan t b := by
  rw [scan_append, h]
  rfl

variable {tags : List Tag} {e : Element} {text : List Char}

/-- The rest of the name of an element. -/
theorem scan_name (h : ∀ c ∈ text, isNameCharacter c = true) (name : List Char) :
    scan ⟨tags, .inside ⟨name, []⟩⟩ text = some ⟨tags, .inside ⟨name ++ text, []⟩⟩ := by
  induction text generalizing name with
  | nil => simp [scan]
  | cons c text ih =>
    obtain ⟨hc, htext⟩ := List.forall_mem_cons.1 h
    have hspace : c ≠ ' ' := by rintro rfl; cases hc
    have hslash : c ≠ '/' := by rintro rfl; cases hc
    have hend : c ≠ '>' := by rintro rfl; cases hc
    have hstep : step ⟨tags, .inside ⟨name, []⟩⟩ c = some ⟨tags, .inside ⟨name ++ [c], []⟩⟩ := by
      simp [step, hspace, hslash, hend, hc]
    rw [scan_cons, hstep, Option.bind_some, ih htext, List.append_assoc, List.singleton_append]

theorem scan_attributeName (h : ∀ c ∈ text, isNameCharacter c = true) (name : List Char) :
    scan ⟨tags, .attribute e name⟩ text = some ⟨tags, .attribute e (name ++ text)⟩ := by
  induction text generalizing name with
  | nil => simp [scan]
  | cons c text ih =>
    obtain ⟨hc, htext⟩ := List.forall_mem_cons.1 h
    have hstep : step ⟨tags, .attribute e name⟩ c = some ⟨tags, .attribute e (name ++ [c])⟩ := by
      simp [step, hc]
    rw [scan_cons, hstep, Option.bind_some, ih htext, List.append_assoc, List.singleton_append]

theorem scan_value (h : ∀ c ∈ text, c ≠ '"' ∧ c ≠ '<') (name value : List Char) :
    scan ⟨tags, .value e name value⟩ text = some ⟨tags, .value e name (value ++ text)⟩ := by
  induction text generalizing value with
  | nil => simp [scan]
  | cons c text ih =>
    obtain ⟨⟨hquote, hless⟩, htext⟩ := List.forall_mem_cons.1 h
    have hstep : step ⟨tags, .value e name value⟩ c = some ⟨tags, .value e name (value ++ [c])⟩ := by
      simp [step, hquote, hless]
    rw [scan_cons, hstep, Option.bind_some, ih htext, List.append_assoc, List.singleton_append]

end Scanner

/-! ## Scanning what was written -/

/-- The text needs no escape within quotes. -/
def IsPlain (text : String) : Prop :=
  ∀ c ∈ text.toList, c ≠ '"' ∧ c ≠ '<'

-- Decided along the text, and not over the whole range of characters.
instance (text : String) : Decidable (IsPlain text) :=
  List.decidableBAll (fun c => c ≠ '"' ∧ c ≠ '<') text.toList

theorem IsPlain.append {a b : String} (ha : IsPlain a) (hb : IsPlain b) : IsPlain (a ++ b) := by
  intro c hc
  rw [String.toList_append, List.mem_append] at hc
  exact hc.elim (ha c) (hb c)

theorem isPlain_toString_nat (n : Nat) : IsPlain (toString n) := by
  intro c hc
  change c ∈ n.repr.toList at hc
  rw [Nat.toList_repr] at hc
  have hdigit := Nat.isDigit_of_mem_toDigits (by decide) (by decide) hc
  constructor
  · rintro rfl
    cases hdigit
  · rintro rfl
    cases hdigit

theorem isPlain_toString_int (i : Int) : IsPlain (toString i) := by
  cases i with
  | ofNat n => exact isPlain_toString_nat n
  | negSucc n =>
    have hminus : IsPlain "-" := by decide
    exact hminus.append (isPlain_toString_nat (n + 1))

/-- The text has only characters of names. -/
def IsName (text : String) : Prop :=
  ∀ c ∈ text.toList, isNameCharacter c = true

instance (text : String) : Decidable (IsName text) :=
  List.decidableBAll (fun c => isNameCharacter c = true) text.toList

/-- An attribute whose value needs no escape. -/
structure IsPlainAttribute (a : String × String) : Prop where
  name : IsName a.1
  value : IsPlain a.2

theorem IsPlainAttribute.of (name : String) {value : String} (hname : IsName name)
    (hvalue : IsPlain value) : IsPlainAttribute (name, value) := ⟨hname, hvalue⟩

/-- The characters of an attribute. -/
def attributeCharacters (a : String × String) : List Char × List Char :=
  (a.1.toList, a.2.toList)

/-- The text of attributes. -/
def attributesText (attributes : List (String × String)) : List String :=
  attributes.map fun a => textAttribute a.1 a.2

open Scanner

variable (tags : List Tag)

theorem scan_textAttribute {a : String × String} (h : IsPlainAttribute a) (e : Element) :
    scan ⟨tags, .inside e⟩ (textAttribute a.1 a.2).toList =
      some ⟨tags, .inside ⟨e.name, e.attributes ++ [attributeCharacters a]⟩⟩ := by
  have htext : (textAttribute a.1 a.2).toList =
      [' '] ++ (a.1.toList ++ (['=', '"'] ++ (a.2.toList ++ ['"']))) := by
    simp [textAttribute]
    rfl
  have hspace : scan ⟨tags, .inside e⟩ [' '] = some ⟨tags, .attribute e []⟩ := rfl
  have hequals : scan ⟨tags, .attribute e ([] ++ a.1.toList)⟩ ['=', '"'] =
      some ⟨tags, .value e a.1.toList []⟩ := rfl
  rw [htext, scan_append_of_scan hspace, scan_append_of_scan (scan_attributeName h.name []),
    scan_append_of_scan hequals, scan_append_of_scan (scan_value h.value _ [])]
  rfl

/-- Attributes are scanned one after the other. -/
theorem scan_attributes {attributes : List (String × String)}
    (h : ∀ a ∈ attributes, IsPlainAttribute a) (e : Element) :
    scan ⟨tags, .inside e⟩ (String.join (attributesText attributes)).toList =
      some ⟨tags, .inside ⟨e.name, e.attributes ++ attributes.map attributeCharacters⟩⟩ := by
  induction attributes generalizing e with
  | nil => simp [scan, attributesText]
  | cons a attributes ih =>
    obtain ⟨ha, hattributes⟩ := List.forall_mem_cons.1 h
    have htext : (String.join (attributesText (a :: attributes))).toList =
        (textAttribute a.1 a.2).toList ++ (String.join (attributesText attributes)).toList := by
      simp [attributesText]
    rw [htext, scan_append_of_scan (scan_textAttribute tags ha e), ih hattributes,
      List.append_assoc]
    rfl

/-- The start of a tag is scanned up to the end of its attributes. -/
theorem scan_start {name : String} (hne : name.toList ≠ []) (hname : IsName name)
    {attributes : List (String × String)} (h : ∀ a ∈ attributes, IsPlainAttribute a) :
    scan ⟨tags, .outside⟩ ('<' :: name.toList ++ (String.join (attributesText attributes)).toList) =
      some ⟨tags, .inside ⟨name.toList, attributes.map attributeCharacters⟩⟩ := by
  obtain ⟨c, rest, hcons⟩ := List.exists_cons_of_ne_nil hne
  unfold IsName at hname
  rw [hcons] at hname ⊢
  obtain ⟨hc, hrest⟩ := List.forall_mem_cons.1 hname
  have hslash : c ≠ '/' := by rintro rfl; cases hc
  have hopen : scan ⟨tags, .outside⟩ ['<', c] = some ⟨tags, .inside ⟨[c], []⟩⟩ := by
    simp [scan, step, hslash, hc]
  have htext : '<' :: (c :: rest) ++ (String.join (attributesText attributes)).toList =
      ['<', c] ++ (rest ++ (String.join (attributesText attributes)).toList) := by
    simp
  rw [htext, scan_append_of_scan hopen, scan_append_of_scan (scan_name hrest [c]),
    scan_attributes tags h]
  rfl

/-- An empty element is scanned. -/
theorem scan_element {name : String} (hne : name.toList ≠ []) (hname : IsName name)
    {attributes : List (String × String)} (h : ∀ a ∈ attributes, IsPlainAttribute a) :
    scan ⟨tags, .outside⟩ (element name (attributesText attributes)).toList =
      some ⟨tags ++ [.empty ⟨name.toList, attributes.map attributeCharacters⟩], .outside⟩ := by
  have htext : (element name (attributesText attributes)).toList =
      ('<' :: name.toList ++ (String.join (attributesText attributes)).toList) ++
        ['/', '>', '\n'] := by
    simp [element]
    rfl
  rw [htext, scan_append_of_scan (scan_start tags hne hname h)]
  rfl

end PlotSheet.Drawing
