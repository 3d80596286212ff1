import TagLoom.Suggestion
import TagLoom.Unicode.Case

/-!
# Choices

A value that has to be one of a few words, written in any case.
-/

namespace TagLoom.Choice

def refusal? (value : Bytes) (words : List Bytes) : Option Bytes :=
  if words.any (Unicode.equalFold value) then none
  else some ("invalid value " ++ Bytes.quote value ++ ", must be one of: " ++ Bytes.join ", " words ++
    (match Suggestion.suggest (Unicode.lowerText value) words with
      | first :: _ => " (did you mean " ++ Bytes.quote first ++ "?)"
      | [] => []))

end TagLoom.Choice
