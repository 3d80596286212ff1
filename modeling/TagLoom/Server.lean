import TagLoom.Json.Print
import TagLoom.Server.Model
import TagLoom.Session
import TagLoom.Unicode.Case

/-!
# The development server

Pages for a browser: a list of all tags, each tag rendered with a model from the request, and the
state of the session.  Every handler reads what is shared once.

## The reload script

A script that reloads a page when templates change.  It is put before the end of a page's body.
-/

namespace TagLoom

def reloadScript : Bytes :=
  "<script>
(function() \x7b
\tvar proto = location.protocol === \"https:\" ? \"wss://\" : \"ws://\";
\tfunction connect() \x7b
\t\tvar ws = new WebSocket(proto + location.host + \"/ws\");
\t\tws.onmessage = function(event) \x7b
\t\t\tvar msg = JSON.parse(event.data);
\t\t\tif (msg.type === \"reload\") \x7b
\t\t\t\tlocation.reload();
\t\t\t\x7d else if (msg.type === \"error\") \x7b
\t\t\t\tshowErrors(msg.errors || []);
\t\t\t\x7d
\t\t\x7d;
\t\tws.onclose = function() \x7b setTimeout(connect, 1000); \x7d;
\t\x7d
\tfunction showErrors(errors) \x7b
\t\tvar old = document.getElementById(\"taglet-error-overlay\");
\t\tif (old) \x7b old.remove(); \x7d
\t\tvar overlay = document.createElement(\"div\");
\t\toverlay.id = \"taglet-error-overlay\";
\t\toverlay.style.cssText = \"position:fixed;top:0;left:0;width:100%;height:100%;background:rgba(0,0,0,0.85);color:#fff;font-family:monospace;padding:20px;box-sizing:border-box;overflow:auto;z-index:9999\";
\t\terrors.forEach(function(e) \x7b
\t\t\tvar line = document.createElement(\"div\");
\t\t\tline.style.marginBottom = \"10px\";
\t\t\tline.textContent = (e.file ? e.file + \":\" + e.line + \":\" + e.column + \": \" : \"\") + e.message;
\t\t\toverlay.appendChild(line);
\t\t\x7d);
\t\tdocument.body.appendChild(overlay);
\t\x7d
\tconnect();
\x7d)();
</script>
"

def lastOccurrence? (s needle : Bytes) : Option Nat :=
  match s with
  | [] => none
  | c :: rest =>
      match lastOccurrence? rest needle with
      | some i => some (i + 1)
      | none => if Bytes.startsWith (c :: rest) needle then some 0 else none

/-- A page with a script before the last end of a body, or at its end.  The end of the body is looked
for in the page in lower case, which need not be as long as the page: none when the place found is
not in the page. -/
def injectScript (page script : Bytes) : Option Bytes :=
  match lastOccurrence? (Unicode.lowerText page) "</body>" with
  | some i => if i ≤ page.length then some (page.take i ++ script ++ page.drop i) else none
  | none => some (page ++ script)

/-! ## Handlers -/

structure ServerOptions where
  host : Bytes
  port : Nat
  /-- Whether pages reload themselves. -/
  liveReload : Bool
  /-- Whether measurements can be asked for. -/
  measured : Bool
  version : Bytes
deriving DecidableEq, Inhabited

namespace Server

/-- The address a server listens on; a host with a colon in it stands in brackets. -/
def address (o : ServerOptions) : Bytes :=
  let host := if o.host.isEmpty then Bytes.ofString "localhost" else o.host
  (if host.contains ':'.toUInt8 then "[" ++ host ++ "]" else host) ++ ":" ++ Bytes.ofNat o.port

/-! ## Reports -/

def present (members : List (String × Option Json)) : Json :=
  .object (members.filterMap fun (k, v) => v.map (Bytes.ofString k, ·))

def unlessEmpty (s : Bytes) : Option Json := if s.isEmpty then none else some (.string s)

def unlessZero (n : Int) : Option Json := if n == 0 then none else some (.number (Bytes.ofInt n))

def unlessNone (js : List Json) : Option Json := if js.isEmpty then none else some (.array js)

def texts (xs : List Bytes) : List Json := xs.map .string

def diagnosticJson (d : Diagnostic) : Json :=
  present [("kind", some (.string d.kind.label)), ("severity", some (.string d.severity.label)),
    ("message", some (.string d.message)), ("file", unlessEmpty d.file), ("line", unlessZero d.line),
    ("column", unlessZero d.column), ("suggestions", unlessNone (texts d.suggestions))]

def zeroTime : Bytes := "0001-01-01T00:00:00Z"

def statusJson (o : ServerOptions) (s : Shared) : Json :=
  let shown := s.current.filter (!·.isDiagnostic)
  let generation := (s.current.map (·.generation)).getD 0
  present [("state", some (.string s.state.label)),
    ("generation", some (.number (Bytes.ofNat generation))),
    ("tags", some (.array (texts ((shown.map (·.registry.names)).getD [])))),
    ("built_at", some (.string ((s.current.map (·.builtAt)).getD zeroTime))),
    ("last_errors", unlessNone (s.lastErrors.map diagnosticJson)),
    ("warnings", unlessNone (((shown.map (·.diagnostics)).getD []).map diagnosticJson)),
    ("version", some (.string o.version))]

def healthJson (o : ServerOptions) (s : Shared) : Json :=
  present [("state", some (.string s.state.label)),
    ("status", some (.string (if s.current.isSome then "healthy" else "starting"))),
    ("version", some (.string o.version))]

def jsonResponse (status : Nat) (j : Json) : HttpResponse :=
  ⟨status, Http.json, j.compact ⟨true, true⟩ ++ "\n"⟩

/-- What browsers are told about a recompilation, if anything. -/
def update? (e : SessionEvent) : Option Json :=
  if e.swapped && e.state == .active then
    some (present [("type", some (.string "reload")),
      ("generation", unlessZero ((e.snapshot.map (·.generation)).getD 0 : Nat))])
  else if Diagnostic.hasErrors e.diagnostics then
    some (present [("type", some (.string "error")),
      ("errors", unlessNone (e.diagnostics.map diagnosticJson))])
  else none

/-! ## Pages -/

def pageResponse (o : ServerOptions) (status : Nat) (page : Bytes) : HttpResponse :=
  if !o.liveReload then ⟨status, Http.markup, page⟩
  else match injectScript page reloadScript with
    | some page => ⟨status, Http.markup, page⟩
    | none => Http.brokenOff

def paramText (p : ManifestParam) : Bytes :=
  p.name ++ " " ++ p.type ++ Bytes.when (!p.required) "?"

def tagItem (t : ManifestTag) : Bytes :=
  "<li><a href=\"" ++ Escape.apply .url ("/render/" ++ t.name) ++ "\">" ++ Escape.escapeHtml t.name ++
    "</a> <code>" ++ Escape.escapeHtml t.file ++ "</code>" ++
    Bytes.when (!t.params.isEmpty)
      (" (" ++ Bytes.join ", " (t.params.map fun p => Escape.escapeHtml (paramText p)) ++ ")") ++
    "</li>\n"

def indexOpening : Bytes :=
  "<!DOCTYPE html>
<html>
<head>
<meta charset=\"utf-8\">
<title>taglet</title>
<style>
body \x7b font-family: system-ui, sans-serif; margin: 2rem; color: #1a202c; \x7d
code \x7b background: #edf2f7; padding: 0 4px; border-radius: 3px; \x7d
li \x7b margin-bottom: 0.5rem; \x7d
</style>
</head>
<body>
"

def tagList (m : Manifest) (generation : Nat) : Bytes :=
  "<h1>" ++ Bytes.ofNat m.tags.length ++ " tags</h1>\n<p>generation " ++ Bytes.ofNat generation ++
    "</p>\n<ul>\n" ++ m.tags.flatMap tagItem ++ "</ul>\n"

/-- The page that lists all tags, or shows what keeps them from being there. -/
def index (o : ServerOptions) (s : Shared) : HttpResponse :=
  let script := Bytes.when o.liveReload reloadScript
  let list (content : Bytes) : HttpResponse :=
    ⟨200, Http.markup, indexOpening ++ content ++ script ++ "</body>\n</html>\n"⟩
  let waiting := list "<p>Templates are still compiling.</p>\n"
  match s.current with
  | none => waiting
  | some snapshot =>
      if snapshot.isDiagnostic then
        match injectScript (Overlay.page snapshot.diagnostics) script with
        | some page => ⟨500, Http.markup, page⟩
        | none => Http.brokenOff
      else match snapshot.manifest with
        | some m => list (tagList m snapshot.generation)
        | none => waiting

def errorStatus : RenderError → Nat
  | .unknownTag _ => 404
  | .missing _ _ | .paramType _ _ _ => 400
  | _ => 500

def renderResponse (o : ServerOptions) (snapshot : Snapshot) (tag : Bytes) (model : Env NodeBlock) :
    HttpResponse :=
  match snapshot.registry.render tag model (Page.blank none false) with
  | none => Http.brokenOff
  | some (page, e) =>
      if snapshot.isDiagnostic then pageResponse o 500 page.sink.output
      else match e with
        | some (.crash _) => Http.brokenOff
        | some e => Http.message (errorStatus e) e.message
        | none => pageResponse o 200 page.sink.output

def render (o : ServerOptions) (s : Shared) (r : HttpRequest) (tag query : Bytes) : HttpResponse :=
  match s.current with
  | none => Http.message 503 "templates are still compiling"
  | some snapshot =>
      if r.method == Bytes.ofString "POST" then
        match RequestModel.ofBody r.body with
        | .ok model => renderResponse o snapshot tag model
        | .error e => Http.message 400 ("invalid JSON model: " ++ e.message)
      else renderResponse o snapshot tag (RequestModel.ofQuery query)

/-! ## Routes -/

inductive Route where
  | index
  | render (tag : Bytes)
  | updates
  | status
  | health
  | metrics
deriving DecidableEq

/-- The name a route is counted under; the list of tags has none. -/
def Route.pattern : Route → Bytes
  | .index => "unmatched"
  | .render _ => "/render/\x7btag\x7d"
  | .updates => "/ws"
  | .status => "/api/status"
  | .health => "/health"
  | .metrics => "/metrics"

def route? (o : ServerOptions) (path : Bytes) : Option Route :=
  let start := Bytes.ofString "/render/"
  if path == Bytes.ofString "/" || path.isEmpty then some .index
  else if path == Bytes.ofString "/ws" then some .updates
  else if path == Bytes.ofString "/api/status" then some .status
  else if path == Bytes.ofString "/health" then some .health
  else if path == Bytes.ofString "/metrics" && o.measured then some .metrics
  else if Bytes.startsWith path start then
    let tag := path.drop start.length
    if tag.isEmpty || tag.contains '/'.toUInt8 then none else some (.render tag)
  else none

def allows (method : Bytes) : Route → Bool
  | .metrics => true
  | .render _ => method == Bytes.ofString "GET" || method == Bytes.ofString "POST"
  | _ => method == Bytes.ofString "GET"

def sampleLine (s : Sample) : Bytes :=
  s.name ++ Bytes.when s.isCount "_count" ++
    Bytes.when (!s.labels.isEmpty) ("\x7b" ++ Bytes.join "," s.labels ++ "\x7d") ++ " " ++
    Bytes.ofNat s.amount ++ "\n"

/-- The answer to a request for updates that does not ask for a lasting connection. -/
def upgradeNeeded : HttpResponse :=
  Http.message 426
    "WebSocket protocol violation: Connection header \"\" does not contain Upgrade"

/-- The answer to a request, and the name its route is counted under. -/
def respond (o : ServerOptions) (s : Shared) (m : Metrics) (r : HttpRequest) : HttpResponse × Bytes :=
  let (raw, query) := Http.cutTarget r.target
  if !Http.methods.contains r.method then (Http.notAllowed, "unmatched")
  else match route? o (Http.routedPath raw) with
    | none => (Http.notFound, "unmatched")
    | some route =>
        if !allows r.method route then (Http.notAllowed, "unmatched")
        else
          let response := match route with
            | .index => index o s
            | .render tag => render o s r tag query
            | .status => jsonResponse 200 (statusJson o s)
            | .health => jsonResponse (if s.current.isSome then 200 else 503) (healthJson o s)
            | .updates => upgradeNeeded
            | .metrics => ⟨200, "text/plain; version=0.0.4; charset=utf-8", m.samples.flatMap sampleLine⟩
          (response, route.pattern)

end Server

end TagLoom
