import TagLoom.Expr.Eval
import TagLoom.Markdown
import TagLoom.Sanitizer
import TagLoom.Template.Node

/-!
# Pages

A page is what a render writes to: a sink for the output and the first error.  After an error
nothing more is written, so a renderer may go on and look at the error once.
-/

namespace TagLoom

inductive RenderError where
  /-- A required parameter has no value; the tag is known once a tag is rendered by name. -/
  | missing (tag name : Bytes)
  /-- A value cannot be what a parameter is. -/
  | paramType (name : Bytes) (wanted : ParamType) (reason : Bytes)
  | evaluation (source reason : Bytes)
  /-- A value cannot be written or looped over. -/
  | value (type reason : Bytes)
  | unknownTag (name : Bytes)
  /-- The sink refused a write. -/
  | sink (message : Bytes)
  | cancelled
  /-- An error that comes from the caller. -/
  | given (message : Bytes)
  | markdown (message : Bytes)
  | policy (name : Bytes)
  /-- The program breaks off. -/
  | crash (message : Bytes)

namespace RenderError

def message : RenderError → Bytes
  | .missing tag name =>
      Bytes.when (!tag.isEmpty) ("tag " ++ tag ++ ": ") ++ "missing required parameter " ++
        Bytes.quote name
  | .paramType name wanted reason => "parameter " ++ Bytes.quote name ++ ": cannot use value as " ++
      wanted.label ++ ": " ++ reason
  | .evaluation source reason => "evaluating \x7b" ++ source ++ "\x7d: " ++ reason
  | .value type reason => "value of type " ++ type ++ ": " ++ reason
  | .unknownTag name => "unknown tag " ++ Bytes.quote name
  | .sink m => m
  | .cancelled => "context canceled"
  | .given m => m
  | .markdown m => "rendering markdown: " ++ m
  | .policy name => "unknown sanitize policy " ++ Bytes.quote name
  | .crash m => m

def ofSupply : SupplyError → RenderError
  | .own m => .given m
  | .ofSink m => .sink m
  | .missing name => .missing [] name

def inTag (tag : Bytes) : RenderError → RenderError
  | .missing [] name => .missing tag name
  | e => e

end RenderError

/-! ## Sinks -/

/-- Accepted writes in order, and the answer to a write after others: nothing when the sink takes it
whole, or why it refuses it. -/
structure Sink where
  writes : List Bytes
  refusal? : List Bytes → Bytes → Option Bytes

namespace Sink

def output (s : Sink) : Bytes := s.writes.flatten

def bounded (limit : Option Nat) : Sink where
  writes := []
  refusal? := fun writes text =>
    if limit.any (fun n => writes.flatten.length + text.length > n) then some "sink is full" else none

def write (s : Sink) (text : Bytes) : Except Bytes Sink :=
  match s.refusal? s.writes text with
  | some message => .error message
  | none => .ok { s with writes := s.writes ++ [text] }

end Sink

/-! ## Pages -/

/-- A sink, the first error recorded, and whether the request was given up. -/
structure Page where
  sink : Sink
  failure : Option RenderError
  cancelled : Bool

namespace Page

def blank (limit : Option Nat) (cancelled : Bool) : Page := ⟨.bounded limit, none, cancelled⟩

def err? (p : Page) : Option RenderError :=
  match p.failure with
  | some e => some e
  | none => if p.cancelled then some .cancelled else none

def fail (p : Page) (e : RenderError) : Page :=
  match p.failure with
  | some _ => p
  | none => { p with failure := some e }

def put (p : Page) (text : Bytes) (refused : Bytes → RenderError) : Page :=
  match p.failure with
  | some _ => p
  | none =>
      match p.sink.write text with
      | .ok sink => { p with sink }
      | .error message => { p with failure := some (refused message) }

def raw (p : Page) (text : Bytes) : Page := if text.isEmpty then p else p.put text .sink

variable {β : Type}

def writeData (p : Page) (v : Value β) (esc : Escape) : Page :=
  match p.failure, v with
  | some _, _ => p
  | none, .nil | none, .noContent => p
  | none, v =>
      match v.text? with
      | some s => p.raw (esc.apply s)
      | none => p.fail (.value v.typeName v.castMessage)

/-- How blocks are rendered; nothing when rendering does not come to an end. -/
abbrev RunBlock (β : Type) := β → Env β → Page → Option Page

/-- Lets supplied markup write.  Its error is recorded when it ends. -/
def supply : Supply → Page → Page
  | .done, p => p
  | .fail e, p => p.fail (.ofSupply e)
  | .write text next, p =>
      match p.sink.write text with
      | .ok sink => supply (next none) { p with sink }
      | .error message => supply (next (some message)) p
  | .ask next, p => supply (next p.cancelled) p

/-- Writes content.  A block whose rendering ends in an error leaves it on the page. -/
def writeContent (run : RunBlock β) (p : Page) (content : Value β) : Option Page :=
  match p.failure with
  | some _ => some p
  | none =>
      match content with
      | .supplied _ s => some (p.supply s)
      | .shown v => some (p.writeData v .html)
      | .block code env => (run code env p).map fun p' =>
          match p'.err? with
          | some e => p'.fail e
          | none => p'
      | _ => some p

/-- Writes a value: content as content, anything else as escaped text. -/
def writeValue (run : RunBlock β) (p : Page) (v : Value β) (esc : Escape) : Option Page :=
  if v.isRenderable then p.writeContent run v else some (p.writeData v esc)

def writeText (p : Page) (s : Bytes) (esc : Escape) : Page := p.raw (esc.apply s)

/-- The value of an expression; nothing, and an error on the page, when it has none.  After an
error nothing is evaluated. -/
def evaluate [Language] (p : Page) (e : Expression) (env : Env β) : Value β × Page :=
  match p.failure with
  | some _ => (.nil, p)
  | none =>
      match Language.evaluate e env with
      | .ok v => (v, p)
      | .error reason => (.nil, p.fail (.evaluation e.source reason))

/-- What a loop over a value goes through; an error on the page when it cannot be looped over.  A
map that does not find one of its keys breaks the program off. -/
def entries (p : Page) (v : Value β) : List (Value β × Value β) × Page :=
  match p.failure with
  | some _ => ([], p)
  | none =>
      match v.entries? with
      | some es =>
          if v.losesKey then
            ([], p.fail (.crash "reflect: call of reflect.Value.Interface on zero Value"))
          else (es, p)
      | none => ([], p.fail (.value v.typeName ("cannot range over " ++ v.typeName)))

end Page

/-! ## Models -/

namespace Env

variable {β : Type}

def required (model : Env β) (name : Bytes) : Except RenderError (Value β) :=
  match model.get? name with
  | some v => .ok v
  | none => .error (.missing [] name)

def requiredText (model : Env β) (name : Bytes) : Except RenderError Bytes := do
  let v ← model.required name
  match v.text? with
  | some s => return s
  | none => throw (.paramType name .text v.castMessage)

def requiredContent (model : Env β) (name : Bytes) : Except RenderError (Value β) :=
  (model.required name).map Value.asContent

end Env

end TagLoom

/-!
## Formatted values on a page

Values written as Markdown or as sanitized markup.
-/

namespace TagLoom.Page

variable {β : Type}

def writeMarkdown (p : Page) (v : Value β) : Page :=
  match v with
  | .nil => p
  | _ => (Markdown.htmlWrites v.toText).foldl (fun p text => p.put text .markdown) p

/-- Writes a value as sanitized markup; without a name the policy for content of users holds. -/
def writeSanitized (p : Page) (v : Value β) (policy : Bytes) : Page :=
  match p.failure, v with
  | some _, _ => p
  | none, .nil => p
  | none, v =>
      match if policy.isEmpty then some .ugc else Policy.ofLabel? policy with
      | none => p.fail (.policy policy)
      | some rules => p.raw (Sanitizer.sanitize rules v.toText)

end TagLoom.Page
