import CssQuery.Scanner.Basic

/-!
# Scanner commands

Every operation on a scanner as a value, so that a run of operations is a list
of them.
-/

namespace CssQuery

/-- An operation on a scanner. -/
inductive ScannerCommand where
  | expect (request : Request)
  | tryTake (request : Request)
  | previous
  | undo
  | skipSpace
  | setSkipsSpace (skipsSpace : Bool)
  | seek (target : Char) (orEnd : Bool)
  | expectEnd (requirement : Option String)
  | expectMore (requirement : Option String)

/-- What an operation on a scanner answers. -/
inductive ScannerAnswer where
  | done
  | taken (value : List Char)
  | declined
  | skipped (some : Bool)
  | failed (error : ScanError)
deriving DecidableEq, Repr

namespace Scanner

def perform (scanner : Scanner) : ScannerCommand → ScannerAnswer × Scanner
  | .expect request =>
      match scanner.expect request with
      | .ok (value, behind) => (.taken value, behind)
      | .error error => (.failed error, scanner)
  | .tryTake request =>
      match scanner.take? request with
      | some (value, behind) => (.taken value, behind)
      | none => (.declined, scanner)
  | .previous => (.done, scanner.previous)
  | .undo => (.done, scanner.undo)
  | .skipSpace => (.skipped (0 < scanner.spaceAhead), scanner.skipSpace)
  | .setSkipsSpace skipsSpace => (.done, { scanner with skipsSpace := skipsSpace })
  | .seek target orEnd =>
      match scanner.seek target orEnd with
      | .ok behind => (.done, behind)
      | .error error => (.failed error, scanner)
  | .expectEnd requirement =>
      match scanner.expectEnd requirement with
      | .ok () => (.done, scanner)
      | .error error => (.failed error, scanner)
  | .expectMore requirement =>
      match scanner.expectMore requirement with
      | .ok () => (.done, scanner)
      | .error error => (.failed error, scanner)

end Scanner

end CssQuery
