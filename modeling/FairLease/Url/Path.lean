import FairLease.Url.Address

/-!
# Paths of web addresses

A path is a list of segments. Writing one drops tabs and line breaks, takes a
backslash for a slash, and resolves the segments that stand for the current and
the parent directory, also when their dots are percent encoded. The parent of a
drive letter is not taken.
-/

namespace FairLease.Url

def isTabOrBreak (c : Char) : Bool :=
  c == '\t' || c == '\n' || c == '\r'

def isSlash (c : Char) : Bool :=
  c == '/' || c == '\\'

/-- Split a text at every slash of either kind. -/
def splitSlashes : List Char -> List (List Char)
  | [] => [[]]
  | c :: rest =>
      if isSlash c then [] :: splitSlashes rest
      else match splitSlashes rest with
        | [] => [[c]]
        | part :: parts => (c :: part) :: parts

/-- One dot, plain or percent encoded, at the front of a segment. -/
def dropDot : List Char -> Option (List Char)
  | '.' :: rest => some rest
  | '%' :: '2' :: 'e' :: rest => some rest
  | '%' :: '2' :: 'E' :: rest => some rest
  | _ => none

def isDot (segment : List Char) : Bool :=
  dropDot segment == some []

def isDoubleDot (segment : List Char) : Bool :=
  (dropDot segment).bind dropDot == some []

def isDriveLetter : List Char -> Bool
  | [c, d] => c.isAlpha && (d == ':' || d == '|')
  | _ => false

/-- Segments in reverse order without the last one, which is kept if it is a
drive letter. -/
def parent : List (List Char) -> List (List Char)
  | [] => []
  | last :: rest => if isDriveLetter last then last :: rest else rest

/-- Resolve segments after those that are done, which are in reverse order. A
path that ends in a dot segment ends in a slash. -/
def resolve (done : List (List Char)) : List (List Char) -> List (List Char)
  | [] => done.reverse
  | [last] =>
      if isDoubleDot last then ([] :: parent done).reverse
      else if isDot last then ([] :: done).reverse
      else (last :: done).reverse
  | segment :: rest =>
      if isDoubleDot segment then resolve (parent done) rest
      else if isDot segment then resolve done rest
      else resolve (segment :: done) rest

def dropLeadingSlash : List Char -> List Char
  | [] => []
  | c :: rest => if isSlash c then rest else c :: rest

def segmentsOf (cs : List Char) : List (List Char) :=
  resolve [] ((splitSlashes
    (dropLeadingSlash (cs.filter (fun c => !isTabOrBreak c)))).map
    (percentEncode inPathSet))

def pathChars (segments : List (List Char)) : List Char :=
  segments.flatMap (fun segment => '/' :: segment)

def normalizePath (cs : List Char) : List Char :=
  pathChars (segmentsOf cs)

end FairLease.Url
