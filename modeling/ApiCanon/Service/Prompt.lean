import ApiCanon.Collection.SortedMap
import ApiCanon.Json.Printer
import ApiCanon.Service.Request
import ApiCanon.Text.Blank
import ApiCanon.Text.Search

/-!
# Prompts

What the writing service is told.  A prompt is a list of sections: the role, numbered
objectives, the context of the caller and the payload as a block of code.  The shape of the
answer travels beside it as a JSON schema.

Entries of the context share one section, which keeps them in ascending order of their keys.
-/

namespace ApiCanon

open Json (Value)

/-- A part of a prompt. -/
inductive PromptSection where
  | role (expertise task : String)
  | objectives (goals : List String)
  | context (entries : SortedMap String)
  | titled (title body : String)
  | code (language body : String)
  deriving Inhabited

/-- The sections of a prompt in order. -/
abbrev Prompt := List PromptSection

namespace PromptSection

/-- Goals numbered from `n + 1` on, one a line. -/
def numbered (n : Nat) : List String → String
  | [] => ""
  | g :: r => toString (n + 1) ++ ". " ++ g ++ "\n" ++ numbered (n + 1) r

/-- The text of a section, with the line feed at its end. -/
def text : PromptSection → String
  | role expertise task =>
    "<ROLE>\nYou are an expert " ++ expertise ++ " specializing in " ++ task ++ ".\n</ROLE>\n"
  | objectives goals => "<OBJECTIVES>\n" ++ numbered 0 goals ++ "</OBJECTIVES>\n"
  | context entries =>
    "# Context\n\n" ++
      String.join (entries.entries.map fun (k, v) => "**" ++ k ++ "**: " ++ v ++ "\n")
  | titled title body => "# " ++ title ++ "\n\n" ++ body ++ "\n"
  | code language body => "\x60\x60\x60" ++ language ++ "\n" ++ body ++ "\n\x60\x60\x60\n"

end PromptSection

namespace Prompt

/-- Adds an entry of the context: to the section of the context, or to a new one at the end. -/
def addContext (key value : String) : Prompt → Prompt
  | [] => [.context (SortedMap.empty.insert key value)]
  | .context entries :: r => .context (entries.insert key value) :: r
  | s :: r => s :: addContext key value r

/-- The text of a prompt: its sections, an empty line between two of them. -/
def text (p : Prompt) : String :=
  Text.trimmedRight (String.join (p.map fun s => s.text ++ "\n"))

/-! ## Prompts of requests -/

/-- The role and the objectives of a kind of request. -/
def task : ItemKind → Prompt
  | .summarize =>
    [.role "API technical writer" "concise endpoint summaries",
      .objectives
        ["Summarize what the endpoint does in one sentence",
          "Use the imperative mood, no trailing period",
          "Stay under 80 characters"]]
  | .enhance =>
    [.role "API technical writer" "reference documentation",
      .objectives
        ["Write a clear description of the endpoint for API consumers",
          "Explain required parameters and the request body",
          "Describe the success response and notable error responses",
          "Only state facts present in the payload"]]
  | .validate =>
    [.role "API reviewer" "documentation quality review",
      .objectives
        ["Check the endpoint documentation for missing or contradictory information",
          "Report each problem as one short issue",
          "Mark the documentation valid when no issue is found"]]

/-- A value of the context: a text as it is, anything else as JSON. -/
def contextText : Value → String
  | .string s => s
  | v => v.compact

/-- Adds the context of a request: the fields of an object one by one, any other value in a
section of its own. -/
def withContext (p : Prompt) : Option Value → Prompt
  | some (.object fields) => fields.foldl (fun p (k, v) => p.addContext k (contextText v)) p
  | some .null | none => p
  | some v => p ++ [.titled "Context" v.compact]

/-- The number of characters of a payload that a prompt shows. -/
def payloadLimit : Nat := 12000

/-- The prompt of a request. -/
def ofRequest (r : ServiceRequest) : Prompt :=
  (task r.kind).withContext r.context ++
    [.code "json" (Text.truncate payloadLimit r.payload.pretty)]

end Prompt

/-! ## Answers -/

namespace ItemKind

/-- The field that an answer must have to be of use. -/
def requiredField : ItemKind → String
  | summarize => "summary"
  | enhance => "description"
  | validate => "valid"

/-- The fields that an answer is asked to have. -/
def requestedFields : ItemKind → List String
  | summarize => ["summary"]
  | enhance => ["description"]
  | validate => ["valid", "issues"]

/-- The schema of a value of the named type. -/
def typeSchema (name : String) : Value := .object [("type", .string name)]

/-- The types of the fields of an answer, the confidence apart. -/
def answerFields : ItemKind → List (String × Value)
  | summarize => [("summary", typeSchema "string")]
  | enhance => [("description", typeSchema "string")]
  | validate =>
    [("valid", typeSchema "boolean"),
      ("issues", .object [("type", .string "array"), ("items", typeSchema "string")])]

/-- The schema of a confidence. -/
def confidenceSchema : Value :=
  .object [("type", .string "number"), ("minimum", .ofNat 0), ("maximum", .ofNat 1)]

/-- The JSON schema of an answer. -/
def answerSchema (k : ItemKind) : Value :=
  .object
    [("type", .string "object"),
      ("properties", .object (k.answerFields ++ [("confidence", confidenceSchema)])),
      ("required", .array (k.requestedFields.map .string))]

theorem requiredField_mem_requestedFields (k : ItemKind) :
    k.requiredField ∈ k.requestedFields := by
  cases k <;> simp [requiredField, requestedFields]

end ItemKind

end ApiCanon
