import FluentSql.Text.Entity
import FluentSql.Text.Markup

namespace FluentSql.Text

/-- Markup removed, then what is special in markup escaped. -/
def sanitize (t : Text) : Text := escape (stripTags t)

/-- No angle bracket or quote, and every ampersand starts an entity. -/
def Clean : Text → Prop
  | [] => True
  | c :: t =>
    c ≠ '<' ∧ c ≠ '>' ∧ c ≠ '"' ∧ c ≠ '\'' ∧ (c = '&' → startsEntity t = true) ∧ Clean t

end FluentSql.Text
