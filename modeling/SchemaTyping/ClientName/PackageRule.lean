import SchemaTyping.Text.Leading

/-!
# Package rules

A rule gives a package of the program another name in a client. It holds for the package itself
and for all packages inside it. Rules are kept with those for longer packages first, and the first
one that holds counts.
-/

namespace SchemaTyping

/-- The separator of packages in a client. -/
def clientSeparator : Char := '\\'

/-- A package of the program and its name in a client. -/
structure PackageRule where
  source : String
  target : String
deriving DecidableEq, Inhabited, Repr

namespace PackageRule

/-- What follows the source of a rule in a package for which it holds: nothing, or a dot and
further segments. -/
def rest? (rule : PackageRule) (package : String) : Option (List Char) :=
  (afterWord? rule.source.toList package.toList).filter fun rest =>
    rest.isEmpty || rest.head? = some '.'

/-- Does a rule hold for a package? -/
def holds (rule : PackageRule) (package : String) : Bool :=
  (rule.rest? package).isSome

/-- May a rule stand before another one? Its source is not the shorter one, counted in bytes. -/
def mayPrecede (first second : PackageRule) : Bool :=
  second.source.utf8ByteSize ≤ first.source.utf8ByteSize

/-- Put the rules with longer sources first. Rules with sources of one length keep their order. -/
def arrange (rules : List PackageRule) : List PackageRule :=
  rules.mergeSort mayPrecede

/-- Segments joined by dots, joined as in a client. -/
def joinedForClient (dotted : List Char) : List Char :=
  dotted.map fun c => if c = '.' then clientSeparator else c

/-- The package in a client, by the first rule that holds for it. -/
def convert (rules : List PackageRule) (package : String) : String :=
  let converted :=
    match rules.find? (·.holds package) with
    | some rule => rule.target.toList ++ (rule.rest? package).getD []
    | none => package.toList
  String.ofList (joinedForClient converted)

end PackageRule

end SchemaTyping
