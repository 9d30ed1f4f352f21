import SmtSession.SExpr.Printer

/-!
# Transcripts

What was sent to a solver, as a text that can be given to it again. Remarks are comments between the
commands.
-/

namespace SmtSession.Solver

namespace Transcript

/-- A remark begins with two semicolons, and an empty one is an empty line. -/
def entryText : SExpr → String
  | .comment text => if text = "" then "" else ";; " ++ text
  | command => command.print

def render (entries : List SExpr) : String := "\n".intercalate (entries.map entryText)

/-- A name as part of a file name. -/
def fileStem (name : String) : String :=
  let safe (c : Char) : Char := if c.isAlphanum || c = '-' || c = '_' then c else '_'
  if name = "" then "query" else String.ofList (name.toList.map safe)

/-- The digest of the contents keeps apart the files of different contents. -/
def fileName (stem digest : String) : String := stem ++ "-" ++ digest ++ ".smt2"

end Transcript

/-- The saved transcripts: the stem of the name and the contents of each file. -/
structure Archive where
  writable : Bool
  files : List (String × String) := []

namespace Archive

def maxNameLength : Nat := 255

def digestLength : Nat := 8

def fits (stem : String) : Bool :=
  (Transcript.fileName stem "").utf8ByteSize + digestLength ≤ maxNameLength

/-- Saves a text under a name and gives the stem of the file's name, or nothing if it cannot be
saved. A text saved twice under one name is one file. -/
def save (archive : Archive) (name contents : String) : Option String × Archive :=
  let stem := Transcript.fileStem name
  if archive.writable && fits stem then
    let file := (stem, contents)
    let files := if archive.files.contains file then archive.files else archive.files ++ [file]
    (some stem, { archive with files })
  else (none, archive)

def listing (archive : Archive) (digest : String → String) : List (String × String) :=
  let named := archive.files.map fun (stem, contents) =>
    (Transcript.fileName stem (digest contents), contents)
  named.mergeSort fun a b => ((compare a.1 b.1).then (compare a.2 b.2)).isLE

end Archive

end SmtSession.Solver
