/-!
# Splitting text

A text with separators is the list of the parts between them, of which there is
always one.
-/

namespace FairLease.Text

def splitAt (separator : Char) : List Char -> List (List Char)
  | [] => [[]]
  | c :: rest =>
      if c = separator then [] :: splitAt separator rest
      else
        match splitAt separator rest with
        | [] => [[c]]
        | part :: parts => (c :: part) :: parts

def joinWith (separator : Char) : List (List Char) -> List Char
  | [] => []
  | [part] => part
  | part :: parts => part ++ separator :: joinWith separator parts

def words (cs : List Char) : List (List Char) :=
  (splitAt ' ' (cs.map fun c => if c = '\n' then ' ' else c)).filter
    (!·.isEmpty)

end FairLease.Text
