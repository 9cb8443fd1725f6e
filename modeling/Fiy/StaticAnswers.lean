import Fiy.StaticFiles
import Fiy.TextViews

/-!
# Answers of the static mod

`handle_request` with its responses, and with the exceptions it does not catch. Whether a file can
be opened and what a stream reads from it are given, as is the table of media types.
-/

namespace StaticAnswers

open ByteStrings WebText PathWalks FileTrees TextViews StaticFiles

/-! ## Exceptions and responses -/

inductive Exception
  /-- `fs::filesystem_error` -/
  | fileSystem (why : Failure)
  /-- `std::out_of_range` -/
  | outOfRange
  /-- `std::length_error` -/
  | lengthError
  deriving DecidableEq, Repr

inductive Body
  | text (content : Text)
  /-- a descriptor that is open -/
  | file (place : Place)
  deriving DecidableEq, Repr

structure Response where
  status : Nat
  headers : Text
  body : Body
  deriving DecidableEq, Repr

/-- What loading a file as a text comes to. -/
inductive Load
  | text (content : Text)
  /-- The end of a directory, or none, is no length of a string. -/
  | tooLong
  /-- a pipe that nobody writes to -/
  | blocked
  deriving DecidableEq, Repr

/-- How a function call ends. -/
inductive Stop
  | returned
  | threw (e : Exception)
  | blocked
  deriving DecidableEq, Repr

/-- The calls of the callback, and how the handler ends. -/
structure Ending where
  responses : List Response
  stop : Stop
  deriving DecidableEq, Repr

/-! ## Paths -/

/-- `extension` of an absolute path. A point in front does not count. -/
def extension (path : Text) : Text :=
  let name := (elements path).getLast?.getD []
  if name.length ≤ 2 ∧ name.head? = some 46 then []
  else match name.reverse.findIdx? fun b => decide (b = 46) with
    | none => []
    | some behind =>
      let position := name.length - 1 - behind
      if position = 0 then [] else name.drop position

/-- `std::mismatch`, with what is left of both. -/
def mismatch : List Text → List Text → List Text × List Text
  | a :: path, b :: base => if a = b then mismatch path base else (a :: path, b :: base)
  | path, base => (path, base)

/-- `lexically_relative` of two absolute paths -/
def lexicallyRelative (path base : Text) : Text :=
  match mismatch (elements path) (elements base) with
  | ([], []) => lit "."
  | (rest, left) =>
    let ups : Int := (left.filter fun e => decide (e ≠ [] ∧ e ≠ lit "." ∧ e ≠ lit "..")).length -
      left.count (lit "..")
    if ups = 0 ∧ rest.headD [] = [] then lit "."
    else if 0 ≤ ups then rest.foldl slash ((List.replicate ups.toNat (lit "..")).foldl slash [])
    else []

/-- `fs::relative` -/
def relative (disk : Disk) (path base : Text) : Except Failure Text := do
  let path ← disk.weaklyCanonical path
  let base ← disk.weaklyCanonical base
  return lexicallyRelative path base

/-! ## The mod -/

/-- A site on a machine. -/
structure Server extends Site where
  baseUri : Text
  domain : Text
  /-- `g_cache` -/
  cache : Bool
  /-- `get_ext_mime_type` -/
  mimeType : Text → Text
  /-- `open` for reading -/
  opens : Place → Bool
  /-- what a stream that is open gives -/
  load : Place → Load
  /-- `directory_iterator`: the names, and which of them are directories -/
  entries : Place → Except Failure (List (Text × Bool))
  /-- `what` of a file system error -/
  what : Failure → Text

namespace Server
variable (s : Server)

/-- The file that is opened, if there is one and it can be. -/
def openFile (path : Text) : Option Place :=
  match s.disk.status path with
  | .ok place => if s.opens place then some place else none
  | .error _ => none

def headersPrefix : Text :=
  (if s.cache then lit "Cache-Control: max-age=600\n" else []) ++ lit "Content-Type: "

/-- `file_response`: the extension is taken without its point. -/
def fileResponse (path : Text) : Except Exception Response :=
  match s.openFile path with
  | none => .ok ⟨500, lit "Content-Type: text/html",
      .text (lit "<h1>Server Error</h1> <p>Could not open file!</p>")⟩
  | some place => match substr (extension path) 1 none with
    | none => .error .outOfRange
    | some ext => .ok ⟨200, s.headersPrefix ++ s.mimeType ext, .file place⟩

/-- The line of an entry. -/
def entryLine (entry : Text × Bool) : Text :=
  let slash_ := if entry.2 then lit "/" else []
  lit "<a href=\"./" ++ uriEncode entry.1 ++ slash_ ++ lit "\">" ++ entry.1 ++ slash_ ++
    lit "</a>\n"

def listDirectoryBody (path : Text) (place : Place) : Except Failure Text := do
  let relativePath ← relative s.disk path s.root
  let entries ← s.entries place
  return lit "<!DOCTYPE html><html><head><title>Index of " ++ relativePath ++
    lit "</title><base href=\"" ++ s.baseUri ++ lit "/" ++ relativePath ++
    lit "/\"></head><body><h1>Index of " ++ relativePath ++ lit "/</h1><hr><pre>" ++
    entries.flatMap entryLine ++
    lit ("</pre>\n<!-- set mod_settings.list_directories to false to disable this page -->" ++
      "</body></html>")

/-- `load_file_as_string`; a file that does not open is empty. -/
def loadFileAsString (path : Text) : Load :=
  match s.openFile path with
  | none => .text []
  | some place => s.load place

/-- `get_error_404_body` -/
def error404Body : Load :=
  match s.loadFileAsString (slash s.root (lit "404.html")) with
  | .text [] => .text (lit "<h1>404: Not Found</h1>" ++
      lit "<p>The page or file you are looking for could not be found." ++
      lit (" If you were trying to use an app it's possible that it is not installed or has a" ++
        " different path</p>") ++ lit "<hr/><a href=\"//" ++ s.domain ++ lit "\">" ++ s.domain ++
      lit "</a> | <a href=\"//" ++ s.domain ++
      lit "/portal\">FIY Portal</a>\n\n<!-- to use a custom 404 page create a 404.html file -->")
  | load => load

/-- The headers of a page that is always the same. -/
def staticHeaders : Text := s.headersPrefix ++ lit "text/html"

def notFound (page : Text) : Response := ⟨404, s.staticHeaders, .text page⟩

def forbidden : Response := ⟨403, s.staticHeaders, .text (lit "Error 403 - Forbidden")⟩

/-- The loop over the index files; the path of the first one there is. -/
def indexPath (directory : Text) : List Text → Except Failure (Option Text)
  | [] => .ok none
  | index :: rest => match s.disk.status (slash directory index) with
    | .error .refused => .error .refused
    | .error .missing => indexPath directory rest
    | .ok place => if s.disk.node place = some .file then .ok (some (slash directory index))
      else indexPath directory rest

/-- A failure of a file system call. -/
def checked {α : Type} : Except Failure α → Except Exception α
  | .ok value => .ok value
  | .error why => .error (.fileSystem why)

/-- What is at a path that has passed the comparison. -/
def respondAt (page normalized : Text) : Except Exception Response :=
  match s.disk.status normalized with
  | .error .refused => .error (.fileSystem .refused)
  | .error .missing => .ok (s.notFound page)
  | .ok place => match s.disk.node place with
    | some .dir => match s.indexPath normalized s.index with
      | .error why => .error (.fileSystem why)
      | .ok (some file) => s.fileResponse file
      | .ok none =>
        if s.listDirectory then (checked (s.listDirectoryBody normalized place)).map fun body =>
          ⟨200, lit "Content-Type: text/html", .text body⟩
        else .ok (s.notFound page)
    | some .file => s.fileResponse normalized
    | _ => .ok (s.notFound page)

/-- The handler behind its static variables: the response, or what is thrown for it. -/
def respond (page path : Text) : Except Exception Response :=
  if pathMax ≤ (Site.decoded path).length then
    .ok ⟨400, lit "Content-Type: text/html", .text (lit "Error 400: Path Length too long")⟩
  else match s.disk.weaklyCanonical (s.target path) with
    | .error why => .error (.fileSystem why)
    | .ok normalized =>
      if s.Extends normalized then s.respondAt page normalized else .ok s.forbidden

/-- Only errors of the file system are caught. -/
def caught : Except Exception Response → Ending
  | .ok response => ⟨[response], .returned⟩
  | .error (.fileSystem why) => ⟨[⟨500, lit "Content-Type: text/html",
      .text (lit "<h1>Server Error</h1>Filesystem error: " ++ s.what why)⟩], .returned⟩
  | .error e => ⟨[], .threw e⟩

/-- `handle_request`, with the page for missing files once it has been loaded. -/
def handleRequest (page : Option Text) (path : Text) : Ending × Option Text :=
  match page.elim s.error404Body Load.text with
  | .text page => (s.caught (s.respond page path), some page)
  | .tooLong => (⟨[], .threw .lengthError⟩, none)
  | .blocked => (⟨[], .blocked⟩, none)

/-! ## When a request is answered -/

/-- The path of a request leads to a file inside the root that can be read. -/
structure Resolves (path : Text) (place : Place) : Prop where
  short : (Site.decoded path).length < pathMax
  found : s.disk.status (s.target path) = .ok place
  inside : Inside place s.home
  file : s.disk.node place = some .file
  readable : s.opens place = true

/-- The callback is called once and nothing is thrown; a file that the path leads to is the
body. -/
def Answered (page : Option Text) (path : Text) : Prop :=
  (s.handleRequest page path).1.stop = .returned ∧
    ∃ response, (s.handleRequest page path).1.responses = [response] ∧
      ∀ place, s.Resolves path place → response.status = 200 ∧ response.body = .file place

/-- The path of the file that is opened at a path that has passed the comparison. -/
def opened (normalized : Text) : Option Text :=
  match s.disk.status normalized with
  | .error _ => none
  | .ok place => match s.disk.node place with
    | some .dir => match s.indexPath normalized s.index with
      | .ok file => file
      | .error _ => none
    | some .file => some normalized
    | _ => none

structure Condition (page : Option Text) (path : Text) : Prop where
  /-- The page for missing files has been loaded, or what has its name can be. -/
  page : page = none → ∀ place, s.openFile (slash s.root (lit "404.html")) = some place →
    ∃ content, s.load place = .text content
  /-- A file that is opened has an extension. -/
  extension : (Site.decoded path).length < pathMax →
    ∀ normalized, s.disk.weaklyCanonical (s.target path) = .ok normalized →
      s.Extends normalized → ∀ file, s.opened normalized = some file →
        (s.openFile file).isSome → extension file ≠ []
  /-- Where there is a file for the path, the root is configured as its canonical path, and that of
  the file is not too long. -/
  root : ∀ place, s.Resolves path place →
    elements s.root = s.home.reverse ∧ (placeText place).length < pathMax

end Server

/-! ## Canonical paths -/

theorem status_placeText_eq {disk : Disk} {place : Place} (real : disk.IsReal place) :
    disk.status (placeText place) =
      if pathMax ≤ (placeText place).length then .error .refused else .ok place :=
  status_elements_eq real (elements_placeText (named_of_isReal real))

/-- A place inside the root passes the comparison if the root is written as it is resolved. -/
theorem extends_placeText_iff {site : Site} {place : Place} (real : site.disk.IsReal place)
    (inside : Inside place site.home) :
    site.Extends (placeText place) ↔ elements site.root = site.home.reverse := by
  rw [Site.Extends, elements_placeText (named_of_isReal real)]
  constructor
  · rintro ⟨below, names⟩
    have outer : Inside place (elements site.root).reverse := by
      refine ⟨below.reverse, ?_⟩
      rw [← List.reverse_append, names, List.reverse_reverse]
    have home := status_of_elements (real.outer outer) (List.reverse_reverse _).symm site.resolved
    rw [home, List.reverse_reverse]
  · intro canonical
    obtain ⟨below, rfl⟩ := inside
    exact ⟨below.reverse, by rw [canonical, List.reverse_append]⟩

namespace Server
variable {s : Server}

theorem fileResponse_of_opens {path : Text} {place : Place} (open_ : s.openFile path = some place)
    (some_ : extension path ≠ []) :
    s.fileResponse path = .ok ⟨200, s.headersPrefix ++ s.mimeType (extension path).tail,
      .file place⟩ := by
  have long : 1 ≤ (extension path).length := List.length_pos_iff.mpr some_
  rw [fileResponse, open_, substr, if_pos long, Option.elim_none, List.drop_one]

/-- Nothing but the missing extension of a file that is open is thrown. -/
theorem fileResponse_cases (path : Text) :
    ((∃ response, s.fileResponse path = .ok response) ∧
        ((s.openFile path).isSome → extension path ≠ [])) ∨
      s.fileResponse path = .error .outOfRange ∧ (s.openFile path).isSome ∧ extension path = [] := by
  cases open_ : s.openFile path with
  | none => exact .inl ⟨⟨_, by rw [fileResponse, open_]⟩, nofun⟩
  | some place =>
    by_cases none_ : extension path = []
    · refine .inr ⟨?_, rfl, none_⟩
      rw [fileResponse, open_, none_]
      rfl
    · exact .inl ⟨⟨_, fileResponse_of_opens open_ none_⟩, fun _ => none_⟩

/-- A page, as a response. -/
def pageResponse (page : Nat × Text × Text) : Response := ⟨page.1, page.2.1, .text page.2.2⟩

/-- Behind the comparison a file is opened, or there is a page unless a call to the file system
fails. -/
theorem respondAt_cases (page normalized : Text) :
    (∃ file, s.opened normalized = some file ∧
        s.respondAt page normalized = s.fileResponse file) ∨
      s.opened normalized = none ∧
        ∃ x, s.respondAt page normalized = checked (Except.map pageResponse x) := by
  have missing : s.notFound page = pageResponse (404, s.staticHeaders, page) := rfl
  unfold Server.opened respondAt
  rw [missing]
  cases s.disk.status normalized with
  | error why =>
    cases why with
    | missing => exact .inr ⟨rfl, .ok _, rfl⟩
    | refused => exact .inr ⟨rfl, .error .refused, rfl⟩
  | ok place =>
    cases kind : s.disk.node place with
    | none => exact .inr ⟨by simp [kind], .ok _, by simp only [kind]; rfl⟩
    | some n =>
      cases n with
      | special => exact .inr ⟨by simp [kind], .ok _, by simp only [kind]; rfl⟩
      | link absolute target => exact .inr ⟨by simp [kind], .ok _, by simp only [kind]; rfl⟩
      | file => exact .inl ⟨normalized, by simp [kind], by simp [kind]⟩
      | dir =>
        cases s.indexPath normalized s.index with
        | error why => exact .inr ⟨by simp [kind], .error why, by simp only [kind]; rfl⟩
        | ok found =>
          cases found with
          | some file => exact .inl ⟨file, by simp [kind], by simp [kind]⟩
          | none =>
            refine .inr ⟨by simp [kind], ?_⟩
            by_cases listed : s.listDirectory = true
            · refine ⟨(s.listDirectoryBody normalized place).map fun body =>
                (200, lit "Content-Type: text/html", body), ?_⟩
              simp only [kind, listed, if_true]
              cases s.listDirectoryBody normalized place with
              | error why => rfl
              | ok body => rfl
            · exact ⟨.ok _, by simp only [kind, listed]; rfl⟩

theorem caught_checked (x : Except Failure Response) :
    (s.caught (checked x)).stop = .returned ∧
      ∃ response, (s.caught (checked x)).responses = [response] := by
  cases x with
  | error why => exact ⟨rfl, _, rfl⟩
  | ok response => exact ⟨rfl, response, rfl⟩

/-- A request is answered once unless a file that is open has no extension. -/
theorem caught_respond_iff {page path : Text} :
    ((s.caught (s.respond page path)).stop = .returned ∧
        ∃ response, (s.caught (s.respond page path)).responses = [response]) ↔
      ((Site.decoded path).length < pathMax →
        ∀ normalized, s.disk.weaklyCanonical (s.target path) = .ok normalized →
          s.Extends normalized → ∀ file, s.opened normalized = some file →
            (s.openFile file).isSome → extension file ≠ []) := by
  by_cases long : pathMax ≤ (Site.decoded path).length
  · refine iff_of_true ?_ fun short => absurd short (Nat.not_lt.mpr long)
    simp [respond, long, caught]
  have short : (Site.decoded path).length < pathMax := Nat.not_le.mp long
  simp only [respond, long, if_false, short, true_imp_iff]
  cases s.disk.weaklyCanonical (s.target path) with
  | error why => simp [caught]
  | ok normalized =>
    by_cases extends_ : s.Extends normalized
    · simp only [extends_, if_true, Except.ok.injEq, forall_eq', true_imp_iff]
      rcases s.respondAt_cases page normalized with ⟨file, opened, same⟩ | ⟨closed, x, same⟩
      · rw [same, opened]
        simp only [Option.some.injEq, forall_eq']
        rcases s.fileResponse_cases file with ⟨⟨response, answer⟩, some_⟩ | ⟨threw, open_, none_⟩
        · rw [answer]
          exact ⟨fun _ => some_, fun _ => ⟨rfl, response, rfl⟩⟩
        · simp [threw, caught, open_, none_]
      · simp [same, closed, caught_checked]
    · simp [extends_, caught]

/-- A file that the path leads to is opened under its canonical path, if the root is written as
one. -/
theorem respond_of_resolves {path : Text} {place : Place} (resolves : s.Resolves path place)
    (page : Text) :
    s.respond page path =
      if elements s.root = s.home.reverse then
        if pathMax ≤ (placeText place).length then .error (.fileSystem .refused)
        else s.fileResponse (placeText place)
      else .ok s.forbidden := by
  have real := status_real resolves.found
  rw [respond, if_neg (Nat.not_le.mpr resolves.short), Disk.weaklyCanonical, resolves.found]
  simp only [extends_placeText_iff real resolves.inside]
  split
  · rw [respondAt, status_placeText_eq real]
    by_cases long : pathMax ≤ (placeText place).length
    · simp only [long, if_true]
    · simp only [long, if_false, resolves.file]
  · rfl

theorem openFile_of_resolves {path : Text} {place : Place} (resolves : s.Resolves path place)
    (short : (placeText place).length < pathMax) : s.openFile (placeText place) = some place := by
  rw [openFile, status_placeText_eq (status_real resolves.found), if_neg (Nat.not_le.mpr short)]
  simp only [resolves.readable, if_true]

/-- A file that the path leads to is the answer unless the path of the root or of the file
prevents it. -/
theorem file_of_resolves_iff {path : Text} {place : Place} (resolves : s.Resolves path place)
    {page : Text} {response : Response}
    (answered : (s.caught (s.respond page path)).responses = [response]) :
    response.status = 200 ∧ response.body = .file place ↔
      elements s.root = s.home.reverse ∧ (placeText place).length < pathMax := by
  rw [respond_of_resolves resolves] at answered
  by_cases canonical : elements s.root = s.home.reverse
  · rw [if_pos canonical] at answered
    by_cases long : pathMax ≤ (placeText place).length
    · rw [if_pos long] at answered
      cases answered
      simp
      omega
    · have short := Nat.not_le.mp long
      rw [if_neg long] at answered
      have open_ := openFile_of_resolves resolves short
      rcases s.fileResponse_cases (placeText place) with ⟨-, some_⟩ | ⟨threw, -⟩
      · rw [fileResponse_of_opens open_ (some_ (by simp [open_]))] at answered
        cases answered
        simp [canonical, short]
      · rw [threw] at answered
        cases answered
  · rw [if_neg canonical] at answered
    cases answered
    simp [canonical, forbidden]

/-- `error404Body` is a text if what is opened for it is read. -/
theorem error404Body_iff : (∃ page, s.error404Body = .text page) ↔
    ∀ place, s.openFile (slash s.root (lit "404.html")) = some place →
      ∃ content, s.load place = .text content := by
  have loaded : (∃ page, s.error404Body = .text page) ↔
      ∃ content, s.loadFileAsString (slash s.root (lit "404.html")) = .text content := by
    unfold error404Body
    cases s.loadFileAsString (slash s.root (lit "404.html")) with
    | text content =>
      cases content with
      | nil => simp
      | cons b content => simp
    | tooLong => simp
    | blocked => simp
  rw [loaded, loadFileAsString]
  cases s.openFile (slash s.root (lit "404.html")) with
  | none => simp
  | some place => simp

/-- The requests that are answered once the page for missing files is loaded. -/
theorem answered_some_iff (page path : Text) : s.Answered (some page) path ↔
    ((Site.decoded path).length < pathMax →
        ∀ normalized, s.disk.weaklyCanonical (s.target path) = .ok normalized →
          s.Extends normalized → ∀ file, s.opened normalized = some file →
            (s.openFile file).isSome → extension file ≠ []) ∧
      ∀ place, s.Resolves path place →
        elements s.root = s.home.reverse ∧ (placeText place).length < pathMax := by
  rw [← @caught_respond_iff s page]
  constructor
  · rintro ⟨returned, response, once, file⟩
    refine ⟨⟨returned, response, once⟩, ?_⟩
    intro place resolves
    exact (file_of_resolves_iff resolves once).mp (file place resolves)
  · rintro ⟨⟨returned, response, once⟩, root⟩
    refine ⟨returned, response, once, ?_⟩
    intro place resolves
    exact (file_of_resolves_iff resolves once).mpr (root place resolves)

/-! ### Files -/

theorem findIndex_of_indexPath {directory file : Text} {index : List Text}
    (found : s.indexPath directory index = .ok (some file)) :
    ∃ place, s.disk.status file = .ok place ∧
      s.disk.findIndex directory index = .ok (some place) := by
  induction index with
  | nil => cases found
  | cons name rest ih =>
    unfold indexPath at found
    unfold Disk.findIndex
    cases status : s.disk.status (slash directory name) with
    | error why =>
      rw [status] at found
      cases why with
      | missing => exact ih found
      | refused => cases found
    | ok place =>
      simp only [status] at found
      by_cases file_ : s.disk.node place = some .file
      · rw [if_pos file_] at found
        cases found
        exact ⟨place, status, by simp only [file_, if_true]⟩
      · rw [if_neg file_] at found
        simp only [file_, if_false]
        exact ih found

theorem openFile_of_fileResponse {path : Text} {response : Response} {place : Place}
    (answered : s.fileResponse path = .ok response) (file : response.body = .file place) :
    s.disk.status path = .ok place := by
  unfold fileResponse openFile at answered
  cases status : s.disk.status path with
  | error why =>
    rw [status] at answered
    cases answered
    cases file
  | ok found =>
    cases open_ : s.opens found with
    | false =>
      simp only [status, open_] at answered
      cases answered
      cases file
    | true =>
      simp only [status, open_, if_true] at answered
      split at answered
      · cases answered
      · cases answered
        cases file
        rfl

theorem serve_of_opened {normalized file : Text} (opened : s.opened normalized = some file) :
    ∃ place, s.disk.status file = .ok place ∧ s.serve normalized = .file place := by
  unfold Server.opened at opened
  unfold Site.serve
  cases status : s.disk.status normalized with
  | error why =>
    rw [status] at opened
    cases opened
  | ok place =>
    simp only [status] at opened
    cases kind : s.disk.node place with
    | none => simp [kind] at opened
    | some n =>
      cases n with
      | special => simp [kind] at opened
      | link absolute target => simp [kind] at opened
      | file =>
        simp only [kind, Option.some.injEq] at opened
        subst opened
        exact ⟨place, status, by simp only [kind]⟩
      | dir =>
        cases index : s.indexPath normalized s.index with
        | error why => simp [kind, index] at opened
        | ok found =>
          simp only [kind, index] at opened
          subst opened
          obtain ⟨place, there, first⟩ := findIndex_of_indexPath index
          exact ⟨place, there, by simp only [kind, first]⟩

/-- The file of a response is the one that the path is known to lead to. -/
theorem answer_of_file {page path : Text} {response : Response} {place : Place}
    (answered : s.respond page path = .ok response) (file : response.body = .file place) :
    s.answer path = .file place := by
  unfold respond at answered
  unfold Site.answer
  split at answered
  · cases answered
    cases file
  next short =>
    rw [if_neg short]
    cases canonical : s.disk.weaklyCanonical (s.target path) with
    | error why =>
      rw [canonical] at answered
      cases answered
    | ok normalized =>
      simp only [canonical] at answered
      split at answered
      next extends_ =>
        simp only [extends_, if_true]
        rcases s.respondAt_cases page normalized with ⟨opened, at_, same⟩ | ⟨-, x, same⟩
        · obtain ⟨found, there, served⟩ := serve_of_opened at_
          have place_ := openFile_of_fileResponse (same.symm.trans answered) file
          rw [served]
          exact congrArg Answer.file (Except.ok.inj (there.symm.trans place_))
        · rw [same] at answered
          cases x with
          | error why => cases answered
          | ok content =>
            cases answered
            cases file
      · cases answered
        cases file

end Server

def demoServer : Server where
  disk := diskOf [([], .dir), (["www"], .dir), (["LICENSE", "www"], .file)]
    (by decide +kernel) (by decide +kernel)
  root := "/www"
  index := ["index.html"]
  listDirectory := true
  absolute := by decide
  home := ["www"]
  resolved := by decide +kernel
  baseUri := "https://a.b/files"
  domain := "a.b"
  cache := false
  mimeType := fun _ => "text/plain"
  opens := fun _ => true
  load := fun _ => .text []
  entries := fun _ => .ok [(lit "LICENSE", false)]
  what := fun _ => "filesystem error"

end StaticAnswers
