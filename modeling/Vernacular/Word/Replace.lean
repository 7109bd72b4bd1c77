import Vernacular.Word.Span

/-!
# Replacing words

Words are rewritten one by one and every separator is copied, so the layout of a text survives.
The text is read once, character by character, without being cut into spans.
-/

namespace Vernacular.Separators

/-- Rewrites the word whose characters were read last, if there is one. -/
def flushWord (rewrite : List Char → List Char) : List Char → List Char
  | [] => []
  | pending => rewrite pending.reverse

/-- Rewrites the words of a text; `pending` holds the characters, most recent first, of a word that
has begun. -/
def replaceFrom (s : Separators) (rewrite : List Char → List Char) :
    List Char → List Char → List Char
  | pending, [] => flushWord rewrite pending
  | pending, c :: rest =>
    if s.contains c then
      flushWord rewrite pending ++ c :: s.replaceFrom rewrite [] rest
    else
      s.replaceFrom rewrite (c :: pending) rest

/-- The word that stands for `word`: its entry, or itself when there is none. -/
def substitute (lookup : String → Option String) (word : List Char) : List Char :=
  ((lookup (String.ofList word)).map String.toList).getD word

/-- Replaces every word that has an entry and copies everything else. -/
def replaceWords (s : Separators) (lookup : String → Option String) (text : String) : String :=
  String.ofList (s.replaceFrom (substitute lookup) [] text.toList)

end Vernacular.Separators
