import Docweave.Xml.Namespace
import Docweave.Xml.Reference

set_option autoImplicit false

/-! # Start tags

A start tag has a name, declarations of prefixes, and attributes. Each attribute is read, resolved and
sorted into one of the two before the next one is looked at, so that the first fault in reading order
is the one reported. -/

namespace Docweave.Xml

/-! ## One attribute -/

/-- An attribute before its references are resolved. -/
structure RawAttribute where
  /-- The name of the attribute. -/
  name : WrittenName
  /-- What stands between the quotes. -/
  raw : List Char
  /-- The document from the start of the attribute on. -/
  start : List Char
  /-- The document from the closing quote on. -/
  after : List Char

/-- The value of an attribute, from its opening to its closing quote. -/
def readValue (s : List Char) : Except Fault (List Char × List Char) :=
  match s with
  | [] => stopAtEnd
  | q :: rest =>
    if q = '"' || q = '\'' then
      let stops (c : Char) := c == q || c == '<'
      let value := rest.takeWhile (!stops ·)
      let after := rest.dropWhile (!stops ·)
      if after.isEmpty then stopAtEnd
      else match value.dropWhile isXmlChar with
        | [] => (expectChar q after).map fun tail => (value, tail)
        | bad :: more => stopAt (.nonXmlChar bad) (bad :: more ++ after)
    else stopAt (.expectedQuote (leadByte q)) s

/-- A name, an equals sign and a value in quotes. -/
def readAttribute (s : List Char) : Except Fault (RawAttribute × List Char) := do
  let (name, rest) ← readQName s
  let rest ← expectChar '=' (skipSpaces rest)
  let quoted := skipSpaces rest
  let (raw, rest) ← readValue quoted
  return (⟨name, raw, s, quoted.drop (raw.length + 1)⟩, rest)

/-! ## The whole tag -/

/-- An attribute of a start tag. -/
structure TagAttribute where
  /-- The name as it is written. -/
  name : WrittenName
  /-- The value. -/
  value : String
  /-- The document from the start of the attribute on. -/
  start : List Char
deriving DecidableEq, Repr

/-- A start tag. -/
structure StartTag where
  /-- The name as it is written. -/
  name : WrittenName
  /-- The document from the name on. -/
  start : List Char
  /-- The declarations of namespaces in document order. -/
  declared : Scope
  /-- The other attributes in document order. -/
  attributes : List TagAttribute
  /-- The tag is the whole element. -/
  closed : Bool
deriving DecidableEq, Repr

namespace StartTag

/-- The tag with a declaration of a prefix. The prefix `xml` and its namespace belong together, and
declaring them changes nothing. -/
def declareLead (tag : StartTag) (lead uri : String) (start : List Char) :
    Except Fault StartTag :=
  if uri = xmlnsUri then stopAt .xmlnsUri start
  else if lead = "xml" && uri != xmlUri then stopAt .xmlPrefixUri start
  else if lead != "xml" && uri = xmlUri then stopAt .xmlUri start
  else if tag.declared.declares (some lead) then stopAt (.repeatedNamespace lead) start
  else if uri = xmlUri then .ok tag
  else .ok { tag with declared := tag.declared ++ [⟨some lead, uri⟩] }

/-- The tag with a declaration of the default namespace. Of two such declarations the first holds. -/
def declareDefault (tag : StartTag) (uri : String) (start : List Char) : Except Fault StartTag :=
  if uri = xmlUri then stopAt .xmlUri start
  else if uri = xmlnsUri then stopAt .xmlnsUri start
  else .ok { tag with declared := tag.declared ++ [⟨none, uri⟩] }

/-- The tag with one more attribute. -/
def add (tag : StartTag) (a : RawAttribute) : Except Fault StartTag := do
  let value ← normalizeValue a.after a.raw
  if a.name.lead = "xmlns" then tag.declareLead a.name.base value a.start
  else if a.name.base = "xmlns" then tag.declareDefault value a.start
  else return { tag with attributes := tag.attributes ++ [⟨a.name, value, a.start⟩] }

end StartTag

theorem length_of_readValue {s value rest : List Char} (h : readValue s = .ok (value, rest)) :
    rest.length < s.length := by
  unfold readValue at h
  split at h
  · cases h
  · next q tail =>
    split at h
    · simp only at h
      split at h
      · cases h
      · split at h
        · next hstop _ _ =>
          cases hq : expectChar q (tail.dropWhile fun c => !(c == q || c == '<')) with
          | error e => rw [hq] at h; cases h
          | ok got =>
            rw [hq] at h
            cases h
            have hlt := length_of_expectChar hq
            have hle := (List.dropWhile_sublist (fun c => !(c == q || c == '<')) (l := tail)).length_le
            simp only [List.length_cons]; omega
        · cases h
    · cases h

theorem length_of_readAttribute {s rest : List Char} {a : RawAttribute}
    (h : readAttribute s = .ok (a, rest)) : rest.length < s.length := by
  unfold readAttribute at h
  cases hname : readQName s with
  | error e => rw [hname] at h; cases h
  | ok name =>
    rw [hname] at h
    cases heq : expectChar '=' (skipSpaces name.2) with
    | error e => simp only [bind, Except.bind, heq] at h; cases h
    | ok tail =>
      cases hvalue : readValue (skipSpaces tail) with
      | error e => simp only [bind, Except.bind, heq, hvalue] at h; cases h
      | ok value =>
        simp only [bind, Except.bind, heq, hvalue] at h
        cases h
        have h1 := length_of_readQName hname
        have h2 := length_skipSpaces_le name.2
        have h3 := length_of_expectChar heq
        have h4 := length_skipSpaces_le tail
        have h5 := length_of_readValue hvalue
        omega

/-- The rest of a start tag after its name and the attributes read so far. A text that ends between
two attributes ends the tag without a complaint of its own: there is no tag then. -/
def readTagRest (tag : StartTag) (s : List Char) : Except Fault (Option StartTag × List Char) :=
  if s.isEmpty then .ok (none, [])
  else
    let spaced := (s.head?.map isSpace).getD false
    match _h : skipSpaces s with
    | [] => stopAtEnd
    | '/' :: rest => (expectChar '>' rest).map fun rest => (some { tag with closed := true }, rest)
    | '>' :: rest => .ok (some tag, rest)
    | c :: more =>
      if spaced then
        match _hread : readAttribute (c :: more) with
        | .error e => .error e
        | .ok (a, rest) =>
          match tag.add a with
          | .error e => .error e
          | .ok tag => readTagRest tag rest
      else stopAt (.expectedSpace (leadByte c)) (c :: more)
termination_by s.length
decreasing_by
  have h1 := length_of_readAttribute _hread
  have h2 := length_skipSpaces_le s
  rw [_h] at h2
  omega

/-- A start tag whose first character has been read; none if the text ends inside it. -/
def readStartTag (s : List Char) : Except Fault (Option StartTag × List Char) := do
  let (name, rest) ← readQName s
  if name.lead = "xmlns" then stopAt .xmlnsPrefix s
  else readTagRest ⟨name, s, [], [], false⟩ rest

theorem length_of_readTagRest {tag : StartTag} {s rest : List Char} {got : Option StartTag}
    (h : readTagRest tag s = .ok (got, rest)) : rest.length ≤ s.length := by
  fun_induction readTagRest tag s with
  | case1 => cases h; simp
  | case2 => cases h
  | case3 tag s _ tail heq =>
    have hle := length_skipSpaces_le s
    rw [heq] at hle
    cases hq : expectChar '>' tail with
    | error e => rw [hq] at h; cases h
    | ok after =>
      rw [hq] at h
      cases h
      have := length_of_expectChar hq
      simp only [List.length_cons] at hle; omega
  | case4 tag s _ tail heq =>
    have hle := length_skipSpaces_le s
    rw [heq] at hle
    cases h
    simp only [List.length_cons] at hle; omega
  | case5 => cases h
  | case6 => cases h
  | case7 tag s _ _ c more _ _ heq _ a after hread _ _ ih =>
    have h1 := length_of_readAttribute hread
    have h2 := length_skipSpaces_le s
    rw [heq] at h2
    have h3 := ih h
    omega
  | case8 => cases h

theorem length_of_readStartTag {s rest : List Char} {got : Option StartTag}
    (h : readStartTag s = .ok (got, rest)) : rest.length ≤ s.length := by
  unfold readStartTag at h
  cases hname : readQName s with
  | error e => rw [hname] at h; cases h
  | ok name =>
    simp only [bind, Except.bind, hname] at h
    split at h
    · cases h
    · exact Nat.le_trans (length_of_readTagRest h) (length_of_readQName hname)

end Docweave.Xml
