/-!
# Message templates

A template holds placeholders: a decimal index between braces. Arguments are put in one after the
other, each into the whole text that the ones before it left, so text that an argument brought in
is searched again for the placeholders of later arguments, and only of those.
-/
namespace Cascade.Template

/-- The inside and the closing brace of the placeholder of an argument. -/
def placeholderTail (index : Nat) : List Char := (toString index).toList ++ ['\x7d']

/-- Replaces every occurrence of `first :: others`, from the left and without overlap. -/
def replaceAll (first : Char) (others value : List Char) : List Char → List Char
  | [] => []
  | c :: rest =>
    if c = first ∧ others.isPrefixOf rest then
      value ++ replaceAll first others value (rest.drop others.length)
    else c :: replaceAll first others value rest
termination_by text => text.length
decreasing_by
  all_goals simp only [List.length_drop, List.length_cons]; omega

/-- Puts arguments in, the first of them for the placeholder of `index`. -/
def fillFrom (index : Nat) (text : List Char) : List String → List Char
  | [] => text
  | argument :: arguments =>
    fillFrom (index + 1) (replaceAll '\x7b' (placeholderTail index) argument.toList text) arguments

/-- The template with its arguments put in. -/
def fill (template : String) (arguments : List String) : String :=
  String.ofList (fillFrom 0 template.toList arguments)

end Cascade.Template
