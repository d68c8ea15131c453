import Wdb2ts.Lib.SortedMap
import Wdb2ts.Lib.WhileLoop
import Wdb2ts.UrlParam

/-!
# Request handlers

Request handlers are registered under a path and a version.  A request names a handler by a path
that may end in a version; the path is shortened from the front until a handler is found.  The
default handler of a path is the one under version 0.0.
-/

namespace Wdb2ts

namespace webfw

/-- `DefaultRequestHandlerManager::Version`. -/
structure Version where
  verMajor : ℤ
  verMinor : ℤ
  deriving DecidableEq, Repr

namespace Version

/-- The order of `operator<`: the major number, and then the minor number. -/
def key (version : Version) : ℤ ×ₗ ℤ := toLex (version.verMajor, version.verMinor)

theorem key_injective : Function.Injective key := by
  intro version other same
  have both := Prod.mk.inj (toLex.injective same)
  cases version
  cases other
  exact Version.mk.injEq .. ▸ both

instance : LinearOrder Version := LinearOrder.lift' key key_injective

/-- `Version::operator<`. -/
def less (version rhs : Version) : Bool :=
  if version.verMajor < rhs.verMajor then true
  else version.verMajor = rhs.verMajor && version.verMinor < rhs.verMinor

theorem less_iff_lt (version rhs : Version) : version.less rhs = true ↔ version < rhs := by
  have order : version < rhs ↔ version.verMajor < rhs.verMajor ∨
      version.verMajor = rhs.verMajor ∧ version.verMinor < rhs.verMinor := Prod.Lex.toLex_lt_toLex
  rw [order, less]
  split
  · next smaller => simp [smaller]
  · next notSmaller => simp [notSmaller]

/-- The version of the default handler. -/
def default : Version := ⟨0, 0⟩

end Version

/-- A `RequestHandler`: which object it is, and the version it has. -/
structure RequestHandler where
  object : ℕ
  version : Version
  deriving DecidableEq, Repr

/-- The exceptions of a lookup. -/
inductive ServerPageException where
  | invalidPath (what : Bytes)
  | notFound (what : Bytes)
  deriving DecidableEq, Repr

/-! ## Versions in a path -/

/-- `isNumber`. -/
def isNumber (buf : Bytes) : Bool := buf.all isDigit

/-- `atoi`. -/
def atoi (text : Bytes) : ℤ := (scanInt text).getD 0

/-- A part of a version in `decodeVersion`. -/
def decodePart (text : Bytes) : Option ℤ :=
  if text.isEmpty then some 0 else if isNumber text then some (atoi text) else none

/-- `decodeVersion`, or `none` if it returns false. -/
def decodeVersion (sVer : Bytes) : Option Version :=
  let sMajor := sVer.takeWhile fun byte => byte ≠ Bytes.chr '.'
  let sMinor := sVer.drop (sMajor.length + 1)
  if sVer.isEmpty then some Version.default
  else if sMinor.contains (Bytes.chr '.') then none
  else
    match decodePart sMajor, decodePart sMinor with
    | some major, some minor => some ⟨major, minor⟩
    | _, _ => none

/-- `find_last_of` with a single byte. -/
def findLastOf (text : Bytes) (byte : Byte) : Option ℕ :=
  (text.reverse.findIdx? fun other => other = byte).map fun behind => text.length - 1 - behind

/-- The first byte is a digit. -/
def beginsWithDigit (text : Bytes) : Bool := (text.head?.map isDigit).getD false

/-- A path with a slash in front. -/
def rooted (path : Bytes) : Bytes :=
  if path.head? = some (Bytes.chr '/') then path else Bytes.chr '/' :: path

/-- `RequestHandlerManager::decodePath` behind the search for the last slash, with the last
component of the path and its place.  The component is removed when it is a version or empty. -/
def decodeLast (path : Bytes) (i : ℕ) (buf : Bytes) :
    Except ServerPageException (Bytes × Version) :=
  if beginsWithDigit buf then
    match decodeVersion buf with
    | none => .error (.invalidPath (path ++ Bytes.str "( version: " ++ buf ++ Bytes.str ")"))
    | some version => .ok (rooted (path.take i), version)
  else .ok (rooted (if buf.isEmpty then path.take i else path), Version.default)

/-- `RequestHandlerManager::decodePath`: the path without its version, and the version. -/
def decodePath (path : Bytes) : Except ServerPageException (Bytes × Version) :=
  match findLastOf path (Bytes.chr '/') with
  | some i => decodeLast path i (path.drop (i + 1))
  | none => decodeLast path 0 path

/-! ## The handlers of the manager -/

/-- The handlers of a `DefaultRequestHandlerManager`. -/
structure DefaultRequestHandlerManager where
  handlers : SortedMap Bytes (SortedMap Version RequestHandler)

namespace DefaultRequestHandlerManager

/-- `DefaultRequestHandlerManager()`. -/
def create : DefaultRequestHandlerManager := ⟨∅⟩

/-- `DefaultRequestHandlerManager::findRequestHandlerPathImpl`. -/
def findRequestHandlerPathImpl (manager : DefaultRequestHandlerManager) (path : Bytes)
    (version : Version) : Option RequestHandler :=
  (manager.handlers.find? path).bind fun versions => versions.find? version

/-- The assignment to an element of `handlers`. -/
def assign (manager : DefaultRequestHandlerManager) (path : Bytes) (version : Version)
    (reqHandler : RequestHandler) : DefaultRequestHandlerManager :=
  ⟨manager.handlers.upsert path fun versions => (versions.getD ∅).insert version reqHandler⟩

/-- The removal of an element of `handlers`. -/
def erase (manager : DefaultRequestHandlerManager) (path : Bytes) (version : Version) :
    DefaultRequestHandlerManager :=
  ⟨manager.handlers.upsert path fun versions => (versions.getD ∅).erase version⟩

/-- `DefaultRequestHandlerManager::addRequestHandler`. -/
def addRequestHandler (manager : DefaultRequestHandlerManager) (reqHandler : RequestHandler)
    (path : Bytes) : Bool × DefaultRequestHandlerManager :=
  match manager.findRequestHandlerPathImpl path reqHandler.version with
  | some _ => (false, manager)
  | none => (true, manager.assign path reqHandler.version reqHandler)

/-- Does the default handler of a path go with a handler that is removed? -/
def removesDefault (manager : DefaultRequestHandlerManager) (path : Bytes) (version : Version)
    (hit : RequestHandler) : Bool :=
  version ≠ Version.default &&
    (manager.findRequestHandlerPathImpl path Version.default).any fun defIt =>
      hit.version = defIt.version

/-- `DefaultRequestHandlerManager::removeRequestHandler`. -/
def removeRequestHandler (manager : DefaultRequestHandlerManager) (path : Bytes)
    (version : Version) : Bool × DefaultRequestHandlerManager :=
  match manager.findRequestHandlerPathImpl path version with
  | none => (false, manager)
  | some hit =>
      let cleared :=
        if manager.removesDefault path version hit then manager.erase path Version.default
        else manager
      (true, cleared.erase path version)

/-- The second critical section of `setDefaultRequestHandler`, with the handler that the first one
has found. -/
def installDefault (manager : DefaultRequestHandlerManager) (path : Bytes)
    (reqHandler : RequestHandler) : Bool × DefaultRequestHandlerManager :=
  match manager.findRequestHandlerPathImpl path Version.default with
  | some _ => (false, manager)
  | none => (true, manager.assign path Version.default reqHandler)

/-! ## Lookups -/

/-- The path behind its first component. -/
def shortened (path : Bytes) : Bytes :=
  (path.drop 1).dropWhile fun byte => byte ≠ Bytes.chr '/'

/-- A round of the loop of `findRequestHandlerPath`. -/
def findRound (manager : DefaultRequestHandlerManager) (origPath : Bytes) (version : Version)
    (path : Bytes) : Bytes ⊕ Except ServerPageException RequestHandler :=
  match manager.findRequestHandlerPathImpl path version with
  | some req => .inr (.ok req)
  | none =>
      if path.length = 1 ∨ (shortened path).isEmpty then .inr (.error (.notFound origPath))
      else .inl (shortened path)

/-- `RequestHandlerManager::findRequestHandlerPath`, or `none` if the loop does not end within a
round for each byte of the path. -/
def findRequestHandlerPath (manager : DefaultRequestHandlerManager) (pathIn : Bytes) :
    Option (Except ServerPageException RequestHandler) :=
  if pathIn.isEmpty then some (.error (.invalidPath (Bytes.str "Empty path!")))
  else
    match decodePath pathIn with
    | .error exception => some (.error exception)
    | .ok (path, version) =>
        WhileLoop.runUntil (manager.findRound path version) (path.length + 1) path

end DefaultRequestHandlerManager

end webfw

end Wdb2ts
