namespace DocRun

-- A literal is a finished text between quotes, a word stands for itself.
inductive Outline where
  | word (text : String)
  | literal (text : List Char)
  | wrapped (label : String) (content : Outline)
  | list (items : List Outline)
  | record (label : String) (fields : List (String × Outline))

namespace Outline

def flag : Bool → Outline
  | true => word "true"
  | false => word "false"

def optional : Option Outline → Outline
  | none => word "None"
  | some content => wrapped "Some" content

mutual

def inline : Outline → List Char
  | word text => text.toList
  | literal text => text
  | wrapped label content => label.toList ++ '(' :: inline content ++ [')']
  | list [] => ['[', ']']
  | list (item :: items) => '[' :: inline item ++ inlineItems items ++ [']']
  | record label [] => label.toList
  | record label (field :: fields) =>
    label.toList ++ ' ' :: '{' :: ' ' :: inlineField field ++ inlineFields fields ++ [' ', '}']

def inlineItems : List Outline → List Char
  | [] => []
  | item :: items => ',' :: ' ' :: inline item ++ inlineItems items

def inlineField : String × Outline → List Char
  | (name, content) => name.toList ++ ':' :: ' ' :: inline content

def inlineFields : List (String × Outline) → List Char
  | [] => []
  | field :: fields => ',' :: ' ' :: inlineField field ++ inlineFields fields

end

def newLine (depth : Nat) : List Char := '\n' :: List.replicate (4 * depth) ' '

mutual

-- Every item and every field on lines of its own, with a comma after it.
def stacked (depth : Nat) : Outline → List Char
  | word text => text.toList
  | literal text => text
  | wrapped label content =>
    label.toList ++ '(' :: newLine (depth + 1) ++ stacked (depth + 1) content ++ [',']
      ++ newLine depth ++ [')']
  | list [] => ['[', ']']
  | list (item :: items) =>
    '[' :: stackedItems (depth + 1) (item :: items) ++ newLine depth ++ [']']
  | record label [] => label.toList
  | record label (field :: fields) =>
    label.toList ++ ' ' :: '{' :: stackedFields (depth + 1) (field :: fields)
      ++ newLine depth ++ ['}']

def stackedItems (depth : Nat) : List Outline → List Char
  | [] => []
  | item :: items => newLine depth ++ stacked depth item ++ ',' :: stackedItems depth items

def stackedFields (depth : Nat) : List (String × Outline) → List Char
  | [] => []
  | (name, content) :: fields =>
    newLine depth ++ name.toList ++ ':' :: ' ' :: stacked depth content
      ++ ',' :: stackedFields depth fields

end

end Outline

end DocRun
