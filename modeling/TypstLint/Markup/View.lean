import TypstLint.Json.Value
import TypstLint.Markup.Finding

set_option autoImplicit false

/-! # Outlines as values

What was found in a source file, as a JSON value. -/

namespace TypstLint.Markup

open Json (Value)

/-- A directive. -/
def Directive.toValue (d : Directive) : Value :=
  .obj [("kind", .str d.kind.word), ("target", .ofText? (d.target.map (·.text))),
    ("span", .ofSpan d.span), ("target_span", (d.target.map fun t => Value.ofSpan t.span).getD .null),
    ("items", .ofTexts d.items), ("wildcard", .bool d.wildcard), ("alias", .ofText? d.newName),
    ("is_package", .bool d.isPackage)]

/-- A parameter of a closure. -/
def Param.toValue (p : Param) : Value := .arr [.str p.name, .ofSpan p.span, .bool p.named]

/-- A binding. -/
def Binding.toValue (b : Binding) : Value :=
  .obj [("name", .str b.name), ("span", .ofSpan b.span), ("is_closure", .bool b.isClosure),
    ("params", .arr (b.params.map Param.toValue))]

/-- An issue. -/
def Issue.toValue (i : Issue) : Value := .arr [.str i.kind.message, .ofSpan i.span]

/-- An outline, with the number of its imports. -/
def Outline.toValue (o : Outline) : Value :=
  .obj [("directives", .arr (o.directives.map Directive.toValue)),
    ("bindings", .arr (o.bindings.map Binding.toValue)),
    ("issues", .arr (o.issues.map Issue.toValue)),
    ("imports", .ofNat (o.directives.filter (·.kind == .importing)).length)]

end TypstLint.Markup
