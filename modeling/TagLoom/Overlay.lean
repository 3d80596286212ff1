import TagLoom.Diagnostic
import TagLoom.Escape

/-!
# Overlays

Reports as markup for a browser.  What comes from a report is escaped, so a report cannot add
markup of its own.
-/

namespace TagLoom.Overlay

def colour (d : Diagnostic) : Bytes := if d.severity == .warning then "#feca57" else "#ff6b6b"

def message (d : Diagnostic) : Bytes :=
  d.message ++ Bytes.when (!d.suggestions.isEmpty)
    (" (did you mean " ++ Bytes.join ", " d.suggestions ++ "?)")

def opening (count : Nat) : Bytes :=
  "<div id=\"taglet-error-overlay\" style=\"
\tposition: fixed;
\ttop: 0;
\tleft: 0;
\twidth: 100%;
\theight: 100%;
\tbackground: rgba(0, 0, 0, 0.85);
\tcolor: white;
\tfont-family: 'Monaco', 'Menlo', monospace;
\tfont-size: 14px;
\tz-index: 9999;
\tpadding: 20px;
\tbox-sizing: border-box;
\toverflow: auto;
\">
\t<div style=\"max-width: 1000px; margin: 0 auto;\">
\t\t<h2 style=\"margin: 0 0 20px 0; color: #ff6b6b;\">" ++ Bytes.ofNat count ++ " compiler diagnostic(s)</h2>
"

def entry (d : Diagnostic) : Bytes :=
  "\t\t<div class=\"taglet-error\" style=\"background: #2d3748; padding: 15px; margin-bottom: 15px; border-radius: 4px; border-left: 4px solid "
    ++ colour d ++ ";\">\n\t\t\t<div style=\"color: " ++ colour d
    ++ "; font-weight: bold; margin-bottom: 8px;\">" ++ d.kind.label ++ " " ++ d.severity.label
    ++ "</div>\n\t\t\t<div style=\"color: #e2e8f0; margin-bottom: 5px;\"><strong>"
    ++ Escape.escapeHtml (message d)
    ++ "</strong></div>\n\t\t\t<div class=\"taglet-error-location\" style=\"color: #a0aec0; font-size: 12px;\">"
    ++ Escape.escapeHtml d.location ++ "</div>\n\t\t</div>\n"

def closing : Bytes := "\t</div>\n</div>"

/-- Reports laid over a page; no reports need no markup. -/
def render (ds : List Diagnostic) : Bytes :=
  if ds.isEmpty then [] else opening ds.length ++ ds.flatMap entry ++ closing

def page (ds : List Diagnostic) : Bytes :=
  "<!DOCTYPE html>
<html>
<head>
<meta charset=\"utf-8\">
<title>taglet: compilation failed</title>
</head>
<body style=\"margin:0;background:#1a202c;\">
" ++ render ds ++ "\n</body>\n</html>\n"

end TagLoom.Overlay
