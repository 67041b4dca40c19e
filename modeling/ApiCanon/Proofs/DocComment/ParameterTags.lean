import ApiCanon.DocComment.Reader
import ApiCanon.Proofs.Text.Blank
import ApiCanon.Proofs.Text.Search
import Mathlib.Data.Bool.AllAny

/-!
# Tags of parameters are read back

The tag of a parameter is written from a type, a name with a place in front, a description, and a
mark for a parameter that may be left out: brackets around its name, with a default or without.
Reading the tag gives all of this back, as long as the name ends where its first word does: a
default with a blank in it tears the brackets apart, and the parameter is lost or gets a name with a
bracket in it (`parameter_written_iff`).
-/

namespace ApiCanon.DocComment

open Text (isBlank trim)

/-! ## Written tags -/

/-- What is written in front of a name: a place and a point, or nothing. -/
inductive Placement where
  | bare
  | query
  | header
  | cookie
  deriving DecidableEq, Repr

namespace Placement

def text : Placement → List Char
  | bare => []
  | query => "query.".toList
  | header => "header.".toList
  | cookie => "cookie.".toList

lemma text_eq_nil_iff {place : Placement} : place.text = [] ↔ place = .bare := by
  cases place <;> decide

/-- The place of a parameter; a bare name is in the path if it is one of the placeholders. -/
def location (placeholders : List String) (name : List Char) : Placement → Location
  | bare => if placeholders.contains (String.ofList name) then .path else .query
  | query => .query
  | header => .header
  | cookie => .cookie

lemma location_ne_body {placeholders : List String} {name : List Char} (place : Placement) :
    place.location placeholders name ≠ .body := by
  cases place with
  | bare =>
    rw [location]
    split_ifs <;> nofun
  | query | header | cookie => nofun

end Placement

/-- Whether a parameter may be left out, and what it is then. -/
inductive Presence where
  | mandatory
  | optional
  | default (value : List Char)
  deriving DecidableEq, Repr

/-- What the tag of a parameter is written from. -/
structure WrittenParameter where
  type : List Char
  placement : Placement
  presence : Presence
  name : List Char
  description : List Char

namespace WrittenParameter

variable (w : WrittenParameter)

/-- The place and the name. -/
def placedName : List Char := w.placement.text ++ w.name

/-- The name as it is spelled: in brackets unless it is mandatory, with a default behind an equals
sign. -/
def spelled : List Char :=
  match w.presence with
  | .mandatory => w.placedName
  | .optional => '[' :: w.placedName ++ [']']
  | .default value => '[' :: (w.placedName ++ '=' :: value) ++ [']']

/-- The body of the tag. -/
def body : List Char :=
  '\x7b' :: w.type ++ '\x7d' :: ' ' :: (w.spelled ++ ' ' :: '-' :: ' ' :: w.description)

/-- The parameters that can be written. -/
structure Proper : Prop where
  type : '\x7d' ∉ w.type
  name : ∀ c ∈ w.name, isBlank c = false ∧ c ≠ '.' ∧ c ≠ '=' ∧ c ≠ '[' ∧ c ≠ ']'
  default : ∀ value, w.presence = .default value → '\n' ∉ value ∧ ']' ∉ value
  described : w.description ≠ []
  description : trim w.description = w.description

/-- A parameter is the one that is written.  A type that is marked as optional makes it optional as
well. -/
structure Describes (placeholders : List String) (p : Parameter) : Prop where
  name : p.name = String.ofList w.name
  location : p.location = w.placement.location placeholders w.name
  required : p.required = true ↔
    p.location = .path ∨ w.presence = .mandatory ∧ (typeOf w.type).2 = false
  schema : p.schema = (typeOf w.type).1
  description : p.description = some (String.ofList w.description)

/-- No default has a blank in it, and what has no name has a place. -/
def OneWord : Prop :=
  (∀ value, w.presence = .default value → ∀ c ∈ value, isBlank c = false) ∧
    (w.name = [] → w.placement ≠ .bare)

end WrittenParameter

/-! ## Cutting the body -/

lemma splitName_trim (s : List Char) : splitName (trim s) = splitName s := by
  rw [splitName, splitName, Text.trim_trim]

lemma typeOf_trim (s : List Char) : typeOf (trim s) = typeOf s := by
  rw [typeOf, typeOf, stripOptional, stripOptional, Text.trim_trim]

section Description

variable {d : List Char} (described : d ≠ []) (trimmed : trim d = d)

include described trimmed

/-- A text in front of a description is not trimmed at its end. -/
lemma endsVisible_append_description (s : List Char) : Text.EndsVisible (s ++ d) :=
  Text.endsVisible_append described (trimmed ▸ Text.endsVisible_trim d) s

/-- What follows the name: a dash, and the description. -/
lemma dropDashes_dash : dropDashes ('-' :: ' ' :: d) = d := by
  have front : ∀ c ∈ ('-' :: ' ' :: d).head?, isBlank c = false := by
    rintro c ⟨⟩
    decide
  rw [dropDashes,
    Text.trim_eq_self front (endsVisible_append_description described trimmed ['-', ' ']),
    List.dropWhile_cons_of_pos (by rfl), List.dropWhile_cons_of_neg (by decide)]
  exact (Text.trim_blanks_append (b := [' ']) rfl d).trans trimmed

/-- A text that begins with a word is split behind it. -/
lemma splitName_append {word rest : List Char} (named : word ≠ [])
    (visible : ∀ c ∈ word, isBlank c = false) {c : Char} (blank : isBlank c = true) :
    splitName (word ++ c :: (rest ++ d)) = (word, textOf (dropDashes (rest ++ d))) := by
  have front : ∀ e ∈ (word ++ c :: (rest ++ d)).head?, isBlank e = false := by
    rw [List.head?_append_of_ne_nil _ named]
    exact fun e he => visible e (List.mem_of_mem_head? he)
  have ends : Text.EndsVisible (word ++ c :: (rest ++ d)) := by
    have whole : word ++ c :: (rest ++ d) = (word ++ c :: rest) ++ d := by simp
    rw [whole]
    exact endsVisible_append_description described trimmed _
  rw [splitName, Text.trim_eq_self front ends, Text.splitAtFirst?_append visible blank]

end Description

/-! ## Brackets -/

/-- A bracket that is not closed belongs to the name. -/
lemma splitBrackets_torn {s : List Char} (torn : ']' ∉ s) :
    splitBrackets ('[' :: s) = ('[' :: s, false) := by
  rw [splitBrackets, Text.stripSuffix?_of_not_mem List.mem_cons_self torn]

lemma splitBrackets_bare {s : List Char} (bare : '[' ∉ s) : splitBrackets s = (s, false) := by
  unfold splitBrackets
  split
  · exact absurd List.mem_cons_self bare
  · rfl

/-- The name in brackets goes up to the equals sign. -/
lemma splitBrackets_enclosed (s : List Char) :
    splitBrackets ('[' :: s ++ [']']) = (s.takeWhile (· != '='), true) := by
  have inside : Text.stripSuffix? [']'] (s ++ [']']) = some s := Text.stripSuffix?_eq_some_iff.2 rfl
  rw [List.cons_append, splitBrackets, inside]

/-- A tag by its type and the first word behind it. -/
lemma parameter?_eq (placeholders : List String) {body rest word : List Char}
    {t : Option (List Char)} {d : Option String} (type : splitType body = (t, rest))
    (name : splitName rest = (word, d)) :
    parameter? placeholders body =
      if (splitBrackets word).1.isEmpty then none
      else (placeOf? placeholders (splitBrackets word).1).map fun (location, name) =>
        ((Parameter.plain (String.ofList name) location
          (if location = .body then .any else (typeOrAny t).1)).withRequired
            !((typeOrAny t).2 || (splitBrackets word).2)).withDescription d := by
  rw [parameter?, type]
  simp only [name]
  split_ifs
  · rfl
  · cases placeOf? placeholders (splitBrackets word).1 <;> rfl

/-! ## Places -/

/-- No place begins with a bracket. -/
lemma ofText?_bracket (s : List Char) : Location.ofText? (String.ofList ('[' :: s)) = none := by
  have front : (Text.asciiLower (String.ofList ('[' :: s))).toList.head? = some '[' := by
    simp [Text.asciiLower, Text.asciiLowerChar]
  rw [Location.ofText?]
  generalize Text.asciiLower (String.ofList ('[' :: s)) = t at front
  unfold Location.ofSmall?
  split
  case h_7 => rfl
  all_goals exact absurd front (by decide)

/-- A name that begins with a bracket is never behind a place. -/
lemma placeOf?_bracket {placeholders : List String} {s name : List Char} {l : Location}
    (placed : placeOf? placeholders ('[' :: s) = some (l, name)) : name = '[' :: s := by
  rw [placeOf?, Text.splitAtFirst?, if_neg (by decide)] at placed
  cases split : Text.splitAtFirst? (· == '.') s with
  | none =>
    rw [split] at placed
    dsimp only [Option.map_none] at placed
    split_ifs at placed <;> cases placed <;> rfl
  | some parts =>
    rw [split] at placed
    dsimp only [Option.map_some] at placed
    rw [ofText?_bracket] at placed
    cases placed

/-- A place that is known goes up to the first point. -/
lemma placeOf?_append {placeholders : List String} (place : List Char) (l : Location)
    (known : Location.ofText? (String.ofList place) = some l)
    (pointless : ∀ c ∈ place, (c == '.') = false) (field : List Char) :
    placeOf? placeholders (place ++ '.' :: field) = some (l, field) := by
  rw [placeOf?, Text.splitAtFirst?_append pointless (by rfl)]
  exact congrArg (Option.map (·, field)) known

namespace WrittenParameter

variable {w : WrittenParameter} (proper : w.Proper) {placeholders : List String}

include proper

lemma Proper.splitType_body :
    splitType w.body =
      (some (trim w.type), trim (w.spelled ++ ' ' :: '-' :: ' ' :: w.description)) := by
  have front : ∀ c ∈ w.body.head?, isBlank c = false := by
    rintro c ⟨⟩
    decide
  have ends : Text.EndsVisible w.body := by
    have whole : w.body =
        ('\x7b' :: w.type ++ '\x7d' :: ' ' :: (w.spelled ++ [' ', '-', ' '])) ++ w.description := by
      simp [body]
    rw [whole]
    exact endsVisible_append_description proper.described proper.description _
  have closing : Text.splitAtFirst? (· == '\x7d')
      (w.type ++ '\x7d' :: ' ' :: (w.spelled ++ ' ' :: '-' :: ' ' :: w.description)) =
        some (w.type, ' ' :: (w.spelled ++ ' ' :: '-' :: ' ' :: w.description)) :=
    Text.splitAtFirst?_append
      (fun c hc => beq_false_of_ne (ne_of_mem_of_not_mem hc proper.type)) (by rfl) _
  rw [splitType, Text.trim_eq_self front ends, body, List.cons_append]
  simp only [closing]
  exact congrArg (some (trim w.type), ·) (Text.trim_blanks_append (b := [' ']) rfl _)

/-- Neither the place nor the name has a character that ends it. -/
lemma Proper.placedName : ∀ c ∈ w.placedName, isBlank c = false ∧ c ≠ '=' ∧ c ≠ '[' ∧ c ≠ ']' := by
  refine List.forall_mem_append.2 ⟨?_, fun c hc => ?_⟩
  · cases w.placement <;> exact List.all_iff_forall_prop.1 rfl
  · obtain ⟨visible, -, rest⟩ := proper.name c hc
    exact ⟨visible, rest⟩

/-- Brackets that match are taken off the name. -/
lemma Proper.splitBrackets_spelled :
    splitBrackets w.spelled = (w.placedName, w.presence != .mandatory) := by
  have plain : w.placedName.takeWhile (· != '=') = w.placedName :=
    List.takeWhile_eq_self_iff.2 fun c hc => bne_iff_ne.2 (proper.placedName c hc).2.1
  rw [spelled]
  cases w.presence with
  | mandatory => exact splitBrackets_bare fun h => (proper.placedName _ h).2.2.1 rfl
  | optional =>
    rw [splitBrackets_enclosed, plain]
    rfl
  | default value =>
    dsimp only
    rw [splitBrackets_enclosed,
      List.takeWhile_append_of_pos fun c hc => bne_iff_ne.2 (proper.placedName c hc).2.1,
      List.takeWhile_cons_of_neg (by simp), List.append_nil]
    rfl

/-- A written place is read, and else the placeholders tell. -/
lemma Proper.placeOf?_placedName : placeOf? placeholders w.placedName =
    some (w.placement.location placeholders w.name, w.name) := by
  have pointless : ∀ c ∈ w.name, (c == '.') = false :=
    fun c hc => beq_false_of_ne (proper.name c hc).2.1
  rw [WrittenParameter.placedName]
  cases w.placement with
  | bare =>
    have bare : Text.splitAtFirst? (· == '.') w.name = none :=
      Text.splitAtFirst?_eq_none_iff.2 pointless
    show placeOf? placeholders w.name = _
    rw [placeOf?, bare, Placement.location]
    dsimp only
    split_ifs <;> rfl
  | query =>
    exact placeOf?_append "query".toList .query (by decide +kernel) (by simp) w.name
  | header =>
    exact placeOf?_append "header".toList .header (by decide +kernel) (by simp) w.name
  | cookie =>
    exact placeOf?_append "cookie".toList .cookie (by decide +kernel) (by simp) w.name

/-! ## Reading the tag -/

/-- The tag by its first word, wherever that ends. -/
lemma Proper.parameter?_body {word : List Char} (rest : List Char) (named : word ≠ [])
    (visible : ∀ c ∈ word, isBlank c = false) {c : Char} (blank : isBlank c = true)
    (cut : trim (w.spelled ++ ' ' :: '-' :: ' ' :: w.description) =
      trim (word ++ c :: (rest ++ w.description))) :
    parameter? placeholders w.body =
      if (splitBrackets word).1.isEmpty then none
      else (placeOf? placeholders (splitBrackets word).1).map fun (location, name) =>
        ((Parameter.plain (String.ofList name) location
          (if location = .body then .any else (typeOf w.type).1)).withRequired
            !((typeOf w.type).2 || (splitBrackets word).2)).withDescription
              (textOf (dropDashes (rest ++ w.description))) := by
  have name : splitName (trim (w.spelled ++ ' ' :: '-' :: ' ' :: w.description)) =
      (word, textOf (dropDashes (rest ++ w.description))) := by
    rw [cut, splitName_trim]
    exact splitName_append proper.described proper.description named visible blank
  rw [parameter?_eq placeholders proper.splitType_body name, typeOrAny, typeOf_trim]

/-- The spelled name is one word, if the default has no blank in it. -/
lemma Proper.spelled_visible
    (whole : ∀ value, w.presence = .default value → ∀ c ∈ value, isBlank c = false) :
    ∀ c ∈ w.spelled, isBlank c = false := by
  have visible : ∀ c ∈ w.placedName, isBlank c = false := fun c hc => (proper.placedName c hc).1
  rw [spelled]
  cases presence : w.presence with
  | mandatory => exact visible
  | optional => simpa [or_imp, forall_and] using ⟨rfl, visible, rfl⟩
  | default value =>
    simpa [or_imp, forall_and] using ⟨rfl, visible, rfl, whole value presence, rfl⟩

/-- The parameter is read, if its name is one word. -/
lemma Proper.exists_describes (word : w.OneWord) :
    ∃ p, parameter? placeholders w.body = some p ∧ w.Describes placeholders p := by
  obtain ⟨whole, named⟩ := word
  have placed : w.placedName ≠ [] := by
    intro nameless
    obtain ⟨bare, nameless⟩ := List.append_eq_nil_iff.1 nameless
    exact named nameless (Placement.text_eq_nil_iff.1 bare)
  have first : w.spelled ≠ [] := by
    rw [spelled]
    cases w.presence with
    | mandatory => exact placed
    | optional | default => exact List.cons_ne_nil _ _
  have description : textOf (dropDashes ('-' :: ' ' :: w.description)) =
      some (String.ofList w.description) := by
    rw [dropDashes_dash proper.described proper.description, textOf,
      if_neg (by simpa using proper.described)]
  have read : parameter? placeholders w.body = _ :=
    proper.parameter?_body ['-', ' '] first (proper.spelled_visible whole) (c := ' ') rfl rfl
  rw [proper.splitBrackets_spelled, if_neg (by simpa using placed), proper.placeOf?_placedName,
    List.cons_append, List.cons_append, List.nil_append, description] at read
  refine ⟨_, read, rfl, rfl, ?_, if_neg (Placement.location_ne_body _), ?_⟩
  · dsimp only [Parameter.withDescription, Parameter.withRequired, Parameter.plain]
    simp [or_comm, and_comm]
  · show nonEmpty (some (String.ofList w.description)) = _
    exact Option.filter_eq_some_iff.2 ⟨rfl, by simpa using proper.described⟩

/-- A default with a blank in it tears the brackets apart: the one that is left begins the name. -/
lemma Proper.name_of_torn {value : List Char} (default : w.presence = .default value)
    (torn : ∃ c ∈ value, isBlank c = true) {p : Parameter}
    (read : parameter? placeholders w.body = some p) : ∃ r, p.name = String.ofList ('[' :: r) := by
  cases split : Text.splitAtFirst? isBlank value with
  | none =>
    obtain ⟨c, hc, blank⟩ := torn
    exact absurd (Text.splitAtFirst?_eq_none_iff.1 split c hc) (by simp [blank])
  | some parts =>
    obtain ⟨front, back⟩ := parts
    obtain ⟨⟨c, blank, rfl⟩, visible⟩ := Text.splitAtFirst?_spec split
    obtain ⟨-, closed⟩ := proper.default _ default
    -- The first word ends within the default, in front of the bracket that closes it.
    have word : ∀ d ∈ '[' :: (w.placedName ++ '=' :: front), isBlank d = false := by
      simpa [or_imp, forall_and] using ⟨rfl, fun d hd => (proper.placedName d hd).1, rfl, visible⟩
    have unclosed : ']' ∉ w.placedName ++ '=' :: front := by
      simp only [List.mem_append, List.mem_cons, not_or]
      exact ⟨fun h => (proper.placedName _ h).2.2.2 rfl, by decide,
        fun h => closed (List.mem_append_left _ h)⟩
    rw [proper.parameter?_body (back ++ [']', ' ', '-', ' ']) (List.cons_ne_nil _ _) word blank
      (congrArg trim (by simp [spelled, default])), splitBrackets_torn unclosed,
      if_neg (by nofun)] at read
    obtain ⟨⟨place, name⟩, placed, rfl⟩ := Option.map_eq_some_iff.1 read
    exact ⟨_, congrArg String.ofList (placeOf?_bracket placed)⟩

/-- Without a name and a place there is nothing to read, or the dash is the name. -/
lemma Proper.name_ne_of_nameless (nameless : w.placedName = []) {p : Parameter}
    (whole : ∀ value, w.presence = .default value → ∀ c ∈ value, isBlank c = false)
    (read : parameter? placeholders w.body = some p) : p.name ≠ "" := by
  by_cases mandatory : w.presence = .mandatory
  -- Nothing stands in front of the dash, which becomes the first word.
  · have unspelled : w.spelled = [] := by rw [spelled, mandatory, nameless]
    have dash : trim (w.spelled ++ ' ' :: '-' :: ' ' :: w.description) =
        trim (['-'] ++ ' ' :: ([] ++ w.description)) := by
      rw [unspelled]
      exact Text.trim_blanks_append (b := [' ']) rfl _
    rw [proper.parameter?_body [] (List.cons_ne_nil _ _) (List.forall_mem_singleton.2 rfl) rfl dash,
      splitBrackets_bare (by decide), if_neg (by nofun)] at read
    obtain ⟨⟨place, name⟩, placed, rfl⟩ := Option.map_eq_some_iff.1 read
    have dash : name = ['-'] := by
      rw [placeOf?, Text.splitAtFirst?_eq_none_iff.2 (List.forall_mem_singleton.2 rfl)] at placed
      dsimp only at placed
      split_ifs at placed <;> cases placed <;> rfl
    show String.ofList name ≠ ""
    rw [dash]
    decide
  · have first : w.spelled ≠ [] := by
      rw [spelled]
      split
      · contradiction
      all_goals exact List.cons_ne_nil _ _
    rw [proper.parameter?_body ['-', ' '] first (proper.spelled_visible whole) (c := ' ') rfl rfl,
      proper.splitBrackets_spelled, if_pos (by rw [nameless]; rfl)] at read
    cases read

end WrittenParameter

/-- The tag of a parameter is read back exactly if no default has a blank in it, and what has no
name has a place. -/
theorem parameter_written_iff {w : WrittenParameter} (proper : w.Proper)
    (placeholders : List String) :
    (∃ p, parameter? placeholders w.body = some p ∧ w.Describes placeholders p) ↔ w.OneWord := by
  refine ⟨?_, proper.exists_describes⟩
  rintro ⟨p, read, describes⟩
  have whole : ∀ value, w.presence = .default value → ∀ c ∈ value, isBlank c = false := by
    intro value default c hc
    by_contra blank
    obtain ⟨r, torn⟩ := proper.name_of_torn default ⟨c, hc, by simpa using blank⟩ read
    have same : w.name = '[' :: r := String.ofList_injective (describes.name.symm.trans torn)
    exact (proper.name '[' (same ▸ List.mem_cons_self)).2.2.2.1 rfl
  refine ⟨whole, fun nameless bare => ?_⟩
  refine proper.name_ne_of_nameless ?_ whole read ?_
  · rw [WrittenParameter.placedName, bare, nameless]
    rfl
  · rw [describes.name, nameless]

/-- `{integer} [header.limit=10] - Size of a page` -/
def limitTag : WrittenParameter where
  type := "integer".toList
  placement := .header
  presence := .default "10".toList
  name := "limit".toList
  description := "Size of a page".toList

theorem parameter_written_limit :
    limitTag.Proper ∧ ∃ p, parameter? [] limitTag.body = some p ∧ limitTag.Describes [] p := by
  have proper : limitTag.Proper :=
    ⟨by decide, List.all_iff_forall_prop.1 rfl, by rintro value ⟨⟩; decide, by decide, by rfl⟩
  exact ⟨proper, (parameter_written_iff proper []).2
    ⟨by rintro value ⟨⟩; exact List.all_iff_forall_prop.1 rfl, by decide⟩⟩

/-- `{string} [q=a b] - words` -/
def tornTag : WrittenParameter where
  type := "string".toList
  placement := .bare
  presence := .default "a b".toList
  name := ['q']
  description := "words".toList

/-- The name is read as `[q=a`. -/
theorem not_describes_tornTag :
    tornTag.Proper ∧ ¬∃ p, parameter? [] tornTag.body = some p ∧ tornTag.Describes [] p := by
  have proper : tornTag.Proper :=
    ⟨by decide, List.all_iff_forall_prop.1 rfl, by rintro value ⟨⟩; decide, by decide, by rfl⟩
  refine ⟨proper, ?_⟩
  rintro ⟨p, read, describes⟩
  obtain ⟨r, torn⟩ := proper.name_of_torn rfl ⟨' ', by decide, rfl⟩ read
  cases String.ofList_injective (describes.name.symm.trans torn)

end ApiCanon.DocComment
