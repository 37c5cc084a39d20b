import RouteDepot.Text.Blank
import RouteDepot.Text.Cut

/-! # Qualified names

The qualified name of a class comes from the name of its source and from the package declaration at the very
beginning of the text. Only blanks may stand before that declaration.
-/

namespace RouteDepot.QualifiedName

/-- The characters that a package name may begin with. -/
def isPackageStart (c : Char) : Bool := c.isAlpha || c == '_'

/-- The characters that may continue a package name. -/
def isPackagePart (c : Char) : Bool := c.isAlphanum || c == '_' || c == '.'

/-- The word that begins a package declaration. -/
def packageWord : List Char := ['p', 'a', 'c', 'k', 'a', 'g', 'e']

/-- The package that is declared at the beginning of a text. -/
def packageList? (content : List Char) : Option (List Char) :=
  match Text.behind? packageWord (content.dropWhile Text.isBlank) with
  | none => none
  | some behind =>
    match behind.dropWhile Text.isBlank with
    | [] => none
    | first :: later =>
      if behind.head?.any Text.isBlank && isPackageStart first then
        let rest := later.dropWhile isPackagePart
        if (rest.dropWhile Text.isBlank).head? = some ';' then some (first :: later.takeWhile isPackagePart)
        else none
      else none

/-- The package that is declared at the beginning of a text. -/
def package? (content : String) : Option String := (packageList? content.toList).map String.ofList

/-- The text without the suffix, if it ends in it. -/
def stripSuffix (suffix name : String) : String :=
  match Text.behind? suffix.toList.reverse name.toList.reverse with
  | some stem => String.ofList stem.reverse
  | none => name

/-- The qualified name of the class in a text: the name of the source without the suffix, behind the package if
one is declared. -/
def determine (name content suffix : String) : String :=
  match package? content with
  | some package => package ++ "." ++ stripSuffix suffix name
  | none => stripSuffix suffix name

end RouteDepot.QualifiedName
