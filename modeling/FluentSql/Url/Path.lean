import FluentSql.Url.Basic

namespace FluentSql.Url

def isDot (segment : Text) : Bool := [['.'], "%2e".toList].contains (Text.lower segment)

def isDotDot (segment : Text) : Bool :=
  ["..".toList, ".%2e".toList, "%2e.".toList, "%2e%2e".toList].contains (Text.lower segment)

/-- A segment that looks like the letter of a drive is never left. -/
def isDrive (segment : Text) : Bool :=
  match segment with
  | [letter, mark] => letter.isAlpha && (mark == ':' || mark == '|')
  | letter :: mark :: '\\' :: _ => letter.isAlpha && (mark == ':' || mark == '|')
  | _ => false

/-- The segments above the last one, which comes first here. -/
def parent : List Text → List Text
  | [] => []
  | s :: ss => if isDrive s then s :: ss else ss

/-- Follows segments with dots. The segments passed so far are given, the last one first. A path
that ends with dots ends with an empty segment. -/
def resolve : List Text → List Text → List Text
  | passed, [] => passed.reverse
  | passed, [s] =>
    if isDotDot s then ([] :: parent passed).reverse
    else if isDot s then ([] :: passed).reverse
    else (s :: passed).reverse
  | passed, s :: ss =>
    if isDotDot s then resolve (parent passed) ss
    else if isDot s then resolve passed ss
    else resolve (s :: passed) ss

/-- The path of the text after its first slash. -/
def resolvePath (t : Text) : Text := '/' :: Text.joinWith ['/'] (resolve [] (Text.splitAt '/' t))

end FluentSql.Url
