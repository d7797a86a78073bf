import CssQuery.Text.CharClass
import CssQuery.Token.Basic

/-!
# Quoted strings and bare values

A quoted string ends at the first repeat of the quote that opened it; there
are no escapes.  A value may be written with or without quotes: without them
it runs up to selector space or a terminator.
-/

namespace CssQuery

namespace Recogniser

/-- A string between two equal quotes; its value leaves the quotes out. -/
def quoted : Recogniser
  | [] => none
  | quote :: rest =>
      if isQuote quote then
        let content := rest.takeWhile (· != quote)
        match rest.dropWhile (· != quote) with
        | [] => none
        | _ :: tail => some ⟨quote :: content ++ [quote], content, tail⟩
      else none

/-- A quoted string, or a nonempty run without space and terminators.  A text
that begins with a quote is never read as a bare value. -/
def value (terminators : List Char) : Recogniser := fun text =>
  if (text.head?.map isQuote).getD false then quoted text
  else run (fun c => !isSpace c && !terminators.contains c) text

end Recogniser

end CssQuery
