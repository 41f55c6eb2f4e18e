import Tabletop.Text.Regex.Source

/-! # Text patterns

A pattern is a regular expression together with the text it was read from. It
is known by that text.
-/

namespace Tabletop.Text

/-- A regular expression as an author wrote it. -/
structure Pattern where
  source : String
  regex : Regex
  read : Regex.ofSource source = .ok regex

namespace Pattern

/-- The pattern with a source, unless the source is no regular expression. -/
def ofSource (source : String) : Except Regex.Defect Pattern :=
  match h : Regex.ofSource source with
  | .ok regex => .ok ⟨source, regex, h⟩
  | .error defect => .error defect

/-- Patterns with the same source are equal. -/
theorem ext_source {a b : Pattern} (h : a.source = b.source) : a = b := by
  cases a with
  | mk s r hr =>
      cases b with
      | mk s' r' hr' =>
          subst h
          cases Except.ok.inj (hr.symm.trans hr')
          rfl

theorem ofSource_source (p : Pattern) : ofSource p.source = .ok p := by
  unfold ofSource
  split
  · exact congrArg Except.ok (ext_source rfl)
  · rename_i h
    simp [p.read] at h

instance : DecidableEq Pattern := fun a b =>
  decidable_of_iff (a.source = b.source) ⟨ext_source, fun h => h ▸ rfl⟩

/-- The pattern matches somewhere in the text. -/
def isMatch (p : Pattern) (text : String) : Bool := p.regex.matchesIn text

end Pattern

end Tabletop.Text
