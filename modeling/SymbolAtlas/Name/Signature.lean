import SymbolAtlas.Name.TypeName

/-!
# Qualified names and signatures

A qualified name is a dotted path, perhaps followed by a parameter list in parentheses.  The last
dot of the path parts a type from its member; a constructor is the member `.ctor`, whose own dot
belongs to it.  Parameter lists are cut at the commas outside of all brackets, and two lists match
when their canonical types agree position by position.
-/

namespace SymbolAtlas
namespace Signature

def constructorName : String := ".ctor"

def staticConstructorName : String := ".cctor"

def opensBracket (c : Char) : Bool :=
  c == '<' || c == '[' || c == '('

def closesBracket (c : Char) : Bool :=
  c == '>' || c == ']' || c == ')'

/-- The bracket depth behind a character. -/
def depthAfter (depth : Int) (c : Char) : Int :=
  if opensBracket c then depth + 1 else if closesBracket c then depth - 1 else depth

def splitAtDepth (depth : Int) : List Char → List (List Char)
  | [] => [[]]
  | c :: rest =>
      let depth := depthAfter depth c
      if c == ',' && depth == 0 then [] :: splitAtDepth depth rest
      else
        match splitAtDepth depth rest with
        | [] => [[c]]
        | piece :: pieces => (c :: piece) :: pieces

/-- The parameters of a list, trimmed; empty ones are left out. -/
def parameters (list : String) : List String :=
  (((splitAtDepth 0 list.toList).map Text.trimChars).filter (!·.isEmpty)).map String.ofList

/-- The name in front of the first parenthesis, and the text of the parameter list up to the last
closing one, if there is a list. -/
def split (name : String) : String × Option String :=
  match Text.cutAtFirst? '(' name.toList with
  | none => (Text.trim name, none)
  | some (base, rest) =>
      let inside :=
        match Text.cutAtLast? ')' rest with
        | some (inside, _) => inside
        | none => rest
      (String.ofList (Text.trimChars base), some (String.ofList (Text.trimChars inside)))

/-- A type and its member, parted at the last dot. -/
def splitMember? (path : String) : Option (String × String) :=
  match Text.beforeEnding? ('.' :: constructorName.toList) path.toList with
  | some type => if type.isEmpty then none else some (String.ofList type, constructorName)
  | none =>
      match Text.cutAtLast? '.' path.toList with
      | some (c :: type, member) => some (String.ofList (c :: type), String.ofList member)
      | _ => none

/-- The last segment of a type name; nested types are set off by a plus sign. -/
def simpleName (type : String) : String :=
  match (Text.splitWhere (fun c => c == '.' || c == '+') type.toList).getLast? with
  | some segment => String.ofList segment
  | none => type

/-- Both lists have the same canonical types, position by position. -/
def typesMatch : List String → List String → Bool
  | [], [] => true
  | a :: as, b :: bs => TypeName.canonical a == TypeName.canonical b && typesMatch as bs
  | _, _ => false

end Signature
end SymbolAtlas
