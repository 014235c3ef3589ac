import TextTemplate.Json.Template

/-!
# What is read back from a written document

A document of strings, records and what may be absent is written without blanks, and is what is
read from the front of its text, whatever stands behind it. It takes at most one step more than the
text has characters, so that the steps a reader grants itself suffice.

## Main definitions

* `JsonValue.ReadsBack`: the document is what is read from the front of its text.

## Main results

* `JsonValue.readsBack_record`: a record reads back if its fields do.
* `TemplateText.ofChars?_toJson`, `TemplateText.ofJson?_toJson`: the document of a template is read
  back, and says what it was made from.
* `TemplateFormat.isFaithful_json`: in JSON, what is written of a template is read back.
-/

namespace TextTemplate

namespace JsonValue

/-- In more steps than the document's text has characters, the document is read from the front of
the text, and all that stands behind the text is left. -/
def ReadsBack (document : JsonValue) : Prop :=
  ∀ steps rest, document.text.toList.length ≤ steps →
    value? (steps + 1) (document.text.toList ++ rest) = some (document, rest)

private theorem ReadsBack.ofChars? {document : JsonValue} (h : document.ReadsBack)
    (rest : List Char) :
    ofChars? (document.text.toList ++ rest) = some (document, rest) := by
  refine h _ rest ?_
  rw [List.length_append]
  omega

/-! ### Strings and what may be absent -/

private theorem readsBack_null : null.ReadsBack := by
  intro steps rest _
  simp [value?, text, dropBlanks, isBlank]

private theorem toList_literalText (written : List Char) :
    (literalText written).toList = '"' :: (written ++ ['"']) := by
  simp [literalText]

private theorem readsBack_ofString (s : String) : (ofString s).ReadsBack := by
  intro steps rest _
  have hliteral := JsonText.literal?_escape s.toList rest
  rw [ofString, text, toList_literalText]
  simp [value?, dropBlanks, isBlank, hliteral]

private theorem readsBack_ofPath (path : Path) : (ofPath path).ReadsBack :=
  readsBack_ofString path.text

private theorem readsBack_ofOption {α : Type} {encode : α → JsonValue}
    (h : ∀ a, (encode a).ReadsBack) (a : Option α) : (ofOption encode a).ReadsBack := by
  cases a with
  | none => exact readsBack_null
  | some a => exact h a

/-! ### Records -/

/-- A member with its key as a string. -/
def member (field : String × JsonValue) : List Char × JsonValue :=
  (JsonText.escape field.1.toList, field.2)

private theorem record_eq (fields : List (String × JsonValue)) :
    record fields = object (fields.map member) :=
  rfl

/-- The characters of a member. -/
def memberChars (field : String × JsonValue) : List Char :=
  (keyText (member field).1 ++ field.2.text).toList

/-- The characters of the members behind the first one. -/
def moreChars (fields : List (String × JsonValue)) : List Char :=
  fields.flatMap fun field => ',' :: memberChars field

private theorem memberChars_eq (field : String × JsonValue) :
    memberChars field = '"' :: ((member field).1 ++ '"' :: ':' :: field.2.text.toList) := by
  simp [memberChars, keyText, toList_literalText]

private theorem toList_membersText (before : String) (fields : List (String × JsonValue)) :
    (membersText before (fields.map member)).toList = before.toList ++ moreChars fields := by
  induction fields generalizing before with
  | nil => simp [membersText, moreChars]
  | cons field fields ih =>
    rw [List.map_cons, membersText.eq_def]
    simp [member, ih, moreChars, memberChars]

private theorem toList_text_record (field : String × JsonValue)
    (fields : List (String × JsonValue)) : (record (field :: fields)).text.toList =
      '\x7b' :: (memberChars field ++ moreChars fields ++ ['\x7d']) := by
  rw [record_eq, List.map_cons, text.eq_def]
  simp [member, toList_membersText, memberChars]

section Members

variable {field : String × JsonValue} {steps : Nat}

/-- A member with a comma behind it is the first of the members that are read. -/
theorem members?_more (h : field.2.ReadsBack) (hsteps : (memberChars field).length ≤ steps)
    (rest : List Char) :
    members? (steps + 2) (memberChars field ++ ',' :: rest) =
      (members? (steps + 1) rest).map fun read => (member field :: read.1, read.2) := by
  rw [memberChars_eq] at *
  have hliteral :=
    JsonText.literal?_escape field.1.toList (':' :: (field.2.text.toList ++ ',' :: rest))
  have hitem := h steps (',' :: rest) (by simp at hsteps; omega)
  rw [members?, Option.map_eq_bind]
  simp [dropBlanks, isBlank, hliteral, hitem, member, Function.comp_def]

/-- A member with the brace behind it is the last one that is read. -/
theorem members?_last (h : field.2.ReadsBack) (hsteps : (memberChars field).length ≤ steps)
    (rest : List Char) :
    members? (steps + 2) (memberChars field ++ '\x7d' :: rest) = some ([member field], rest) := by
  rw [memberChars_eq] at *
  have hliteral :=
    JsonText.literal?_escape field.1.toList (':' :: (field.2.text.toList ++ '\x7d' :: rest))
  have hitem := h steps ('\x7d' :: rest) (by simp at hsteps; omega)
  rw [members?]
  simp [dropBlanks, isBlank, hliteral, hitem, member]

/-- The members of a record are read up to the brace behind them. -/
theorem members?_moreChars {fields : List (String × JsonValue)} (hfield : field.2.ReadsBack)
    (hfields : ∀ other ∈ fields, other.2.ReadsBack)
    (hsteps : (memberChars field ++ moreChars fields).length ≤ steps) (rest : List Char) :
    members? (steps + 2) (memberChars field ++ moreChars fields ++ '\x7d' :: rest) =
      some ((field :: fields).map member, rest) := by
  induction fields generalizing field steps with
  | nil =>
    rw [moreChars, List.flatMap_nil, List.append_nil] at *
    exact members?_last hfield hsteps rest
  | cons next fields ih =>
    obtain ⟨hnext, hfields⟩ := List.forall_mem_cons.1 hfields
    have hmore : moreChars (next :: fields) = ',' :: (memberChars next ++ moreChars fields) := rfl
    rw [hmore, List.length_append, List.length_cons] at hsteps
    obtain ⟨steps, rfl⟩ : ∃ n, steps = n + 1 := ⟨steps - 1, by omega⟩
    rw [hmore, List.append_assoc, List.cons_append, members?_more hfield (by omega),
      ih hnext hfields (by omega)]
    rfl

end Members

/-- A record is read back, if its fields are. -/
theorem readsBack_record {fields : List (String × JsonValue)}
    (h : ∀ field ∈ fields, field.2.ReadsBack) : (record fields).ReadsBack := by
  intro steps rest hsteps
  cases fields with
  | nil => simp [record, text, value?, dropBlanks, isBlank]
  | cons field fields =>
    obtain ⟨hfield, hfields⟩ := List.forall_mem_cons.1 h
    rw [toList_text_record] at *
    rw [List.length_cons, List.length_append, List.length_singleton] at hsteps
    obtain ⟨steps, rfl⟩ : ∃ n, steps = n + 2 := ⟨steps - 2, by omega⟩
    have hlength : (memberChars field ++ moreChars fields).length ≤ steps := by omega
    have hmembers := members?_moreChars hfield hfields hlength rest
    rw [memberChars_eq] at *
    simp only [List.cons_append, List.append_assoc, List.nil_append] at hmembers ⊢
    simp [value?, dropBlanks, isBlank, hmembers, record_eq]

/-! ### What a document says -/

@[simp] theorem string?_ofString (s : String) : (ofString s).string? = some s :=
  JsonText.string?_escape s

/-- A tag with nothing to say. -/
theorem tag?_ofString (s : String) : (ofString s).tag? = some (s, null) := by
  rw [ofString, tag?, JsonText.string?_escape, Option.map_some]

@[simp] theorem path?_ofPath (path : Path) : (ofPath path).path? = some path := by
  rw [ofPath, path?, string?_ofString, Option.map_some]

/-- The fields that a record was made of are the ones it has. -/
@[simp] theorem record?_record (fields : List (String × JsonValue)) :
    (record fields).record? = some fields := by
  rw [record_eq, record?, keyed?]
  induction fields with
  | nil => rfl
  | cons field fields ih =>
    simp [member, JsonText.string?_escape, ih]

/-- A record with the names that are asked for, none of them twice, has them all. -/
theorem fields?_record {names : List String} {fields : List (String × JsonValue)}
    (hnames : fields.map Prod.fst = names) (h : names.Nodup) :
    (record fields).fields? names = some fields := by
  have hknown : ∀ field ∈ fields, names.contains field.1 = true := fun field hfield => by
    rw [← hnames, List.contains_iff_mem]
    exact List.mem_map_of_mem hfield
  have hrecord := record?_record fields
  rw [record_eq] at *
  simp only [fields?, hrecord, Option.bind_eq_bind, Option.bind_some]
  rw [List.filter_eq_self.2 hknown, hnames, if_pos h]

end JsonValue

/-- The name of a mode says which mode it is. -/
theorem Mode.ofJson?_toJson (mode : Mode) : Mode.ofJson? mode.toJson = some mode := by
  rw [ofJson?, toJson, JsonValue.tag?_ofString]
  cases mode <;> rfl

namespace TemplateText

/-- The document of a template says what it was made from. -/
theorem ofJson?_toJson (t : TemplateText) : ofJson? t.toJson = some t := by
  have horigin : JsonValue.nullable? JsonValue.path? (.ofOption .ofPath t.origin) =
      some t.origin := by
    cases t.origin with
    | none => rfl
    | some path => exact congrArg (Option.map some) (JsonValue.path?_ofPath path)
  have hfields : t.toJson.fields? ["source", "mode", "origin"] =
      some [("source", .ofString t.source), ("mode", t.mode.toJson),
        ("origin", .ofOption .ofPath t.origin)] :=
    JsonValue.fields?_record rfl (by decide)
  rw [ofJson?, hfields]
  change (do
    let source ← (JsonValue.ofString t.source).string?
    let mode ← Mode.ofJson? t.mode.toJson
    let origin ← JsonValue.nullable? JsonValue.path? (.ofOption .ofPath t.origin)
    return TemplateText.mk source mode origin) = some t
  rw [JsonValue.string?_ofString, Mode.ofJson?_toJson, horigin]
  rfl

private theorem readsBack_toJson (t : TemplateText) : t.toJson.ReadsBack := by
  have horigin := JsonValue.readsBack_ofOption JsonValue.readsBack_ofPath t.origin
  refine JsonValue.readsBack_record (List.forall_mem_cons.2 ⟨?_, List.forall_mem_cons.2 ⟨?_, ?_⟩⟩)
  · exact JsonValue.readsBack_ofString t.source
  · exact JsonValue.readsBack_ofString t.mode.name
  · exact List.forall_mem_singleton.2 horigin

/-- The document of a template is read back from its text. -/
theorem ofChars?_toJson (t : TemplateText) :
    JsonValue.ofChars? t.toJson.text.toList = some (t.toJson, []) := by
  rw [← List.append_nil t.toJson.text.toList]
  exact t.readsBack_toJson.ofChars? []

example : (TemplateText.mk "a\tb" .interpreted none).toJson.text =
    "\x7b\"source\":\"a\\tb\",\"mode\":\"Interpreted\",\"origin\":null\x7d" := by
  decide +kernel

end TemplateText

/-- In JSON, what is written of a template is read back. -/
theorem TemplateFormat.isFaithful_json : json.IsFaithful := by
  intro t
  rw [json]
  simp only [TemplateText.ofChars?_toJson, Option.bind_eq_bind, Option.bind_some,
    TemplateText.ofJson?_toJson]
  rfl

end TextTemplate
