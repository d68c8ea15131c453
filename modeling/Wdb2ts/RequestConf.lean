import Mathlib.Data.Prod.Lex
import Wdb2ts.Decimal
import Wdb2ts.Lib.KeyedLists
import Wdb2ts.Miutil
import Wdb2ts.ParamDef

/-!
# Requests and their versions

A `Request` of the configuration has default settings and a list of versions.  The versions are
shared objects, so the list holds their addresses, and `resolve` writes to the objects.
-/

namespace Wdb2ts

/-- `miutil::Value`: a text, unless it is undefined. -/
abbrev miutil.Value := Option Bytes

namespace config

/-- The version number of a request. -/
structure Version where
  majorVer : ℤ
  minorVer : ℤ
  deriving DecidableEq, Repr

namespace Version

/-- `Version()`. -/
def highest : Version := ⟨-1, -1⟩

def defaultVersionHighest (version : Version) : Bool :=
  version.majorVer = -1 ∧ version.minorVer = -1

def invalid (version : Version) : Bool :=
  version.majorVer = 0 ∧ version.minorVer = 0

/-- `Version( const std::string & )`. -/
def ofText (text : Bytes) : Version :=
  let parts : Option Version :=
    match miutil.splitstr text (Bytes.chr '.') (Bytes.chr '"') with
    | [major] => do
        let majorVer ← lexicalCastInt major
        return ⟨majorVer, if majorVer = -1 then -1 else 0⟩
    | [major, minor] => do
        let majorVer ← lexicalCastInt major
        let minorVer ← lexicalCastInt minor
        return ⟨majorVer, minorVer⟩
    | _ => none
  match parts with
  | some version =>
      if (version.majorVer = 0 ∧ version.minorVer > 0) ∨
          (version.majorVer > 0 ∧ version.minorVer ≥ 0) ∨
          (version.majorVer = -1 ∧ version.minorVer = -1) then version
      else ⟨0, 0⟩
  | none => ⟨0, 0⟩

/-- `operator<`, which takes the highest version on its left for the invalid one. -/
def less (version rhs : Version) : Bool :=
  let left : Version := if version.defaultVersionHighest then ⟨0, 0⟩ else version
  left.majorVer < rhs.majorVer ∨ (left.majorVer = rhs.majorVer ∧ left.minorVer < rhs.minorVer)

/-- `operator()`. -/
def text (version : Version) : Bytes :=
  if version.defaultVersionHighest then Bytes.str " (highest) "
  else if version.invalid then Bytes.str " (invalid) "
  else printInt version.majorVer ++ Bytes.str "." ++ printInt version.minorVer

/-- A version that a list can have. -/
def Numbered (version : Version) : Prop :=
  version.invalid = false ∧ version.defaultVersionHighest = false

instance (version : Version) : Decidable version.Numbered :=
  inferInstanceAs (Decidable (_ ∧ _))

/-- The version numbers, in their order. -/
def number (version : Version) : ℤ ×ₗ ℤ := toLex (version.majorVer, version.minorVer)

theorem number_injective : Function.Injective number := by
  intro left right same
  have pairs := toLex.injective same
  cases left
  cases right
  cases pairs
  rfl

theorem less_iff {version : Version} (numbered : version.Numbered) (rhs : Version) :
    version.less rhs = true ↔ version.number < rhs.number := by
  rw [less, if_neg (by simp [numbered.2]), number, number, Prod.Lex.toLex_lt_toLex]
  exact decide_eq_true_iff

end Version

/-- `ActionParam`. -/
abbrev ActionParam := SortedMap Bytes miutil.Value

/-- The text a key has, when it is defined. -/
def ActionParam.definition (params : ActionParam) (key : Bytes) : Option Bytes :=
  (params.find? key).join

/-- The settings of a request, or of one of its versions. -/
structure RequestConf (F : Type) where
  actionParam : ActionParam
  queryid : miutil.Value
  action : miutil.Value
  wdbDB : miutil.Value
  schema : miutil.Value
  version : Version
  paramdef : ParamDefConfig F

variable {F : Type}

/-- `RequestConf()`. -/
def RequestConf.create : RequestConf F := ⟨∅, none, none, none, none, Version.highest, ∅⟩

/-- The objects behind the shared pointers. -/
abbrev Objects (F : Type) := ℕ → RequestConf F

structure Request (F : Type) where
  requestDefault : RequestConf F
  requestVersions : List ℕ
  path : miutil.Value

namespace Request

/-- `Request()`. -/
def create : Request F := ⟨RequestConf.create, [], none⟩

/-- What `addRequestVersion` returns, the warning it sets and the request behind the call. -/
structure Addition (F : Type) where
  accepted : Bool
  warning : Bytes
  request : Request F

/-- The place in front of the first version that is not greater. -/
def place (objects : Objects F) (request : Request F) (requestVersion : ℕ) : ℕ :=
  request.requestVersions.findIdx fun it =>
    !(objects requestVersion).version.less (objects it).version

/-- `Request::addRequestVersion`.  The duplicates are looked for among the pointers. -/
def addRequestVersion (objects : Objects F) (request : Request F) :
    (requestVersion : Option ℕ) → Addition F
  | none => ⟨false, Bytes.str "Request::addRequestVersion: requestVersion == 0", request⟩
  | some requestVersion =>
      let version := (objects requestVersion).version
      let path := request.path.getD []
      if version.invalid || version.defaultVersionHighest then
        ⟨false, Bytes.str "Request::addRequestVersion: Invalid version attribute. (request: '" ++
          path ++ Bytes.str "')", request⟩
      else if requestVersion ∈ request.requestVersions then
        ⟨false, Bytes.str "addRequestVersion: request: '" ++ path ++
          Bytes.str "' duplicate versions. (" ++ version.text ++ Bytes.str ").", request⟩
      else
        let it := place objects request requestVersion
        ⟨true, [],
          { request with requestVersions := request.requestVersions.insertIdx it requestVersion }⟩

/-- Calls of `addRequestVersion`, one after the other. -/
def addRequestVersions (objects : Objects F) (request : Request F) (calls : List (Option ℕ)) :
    Request F :=
  calls.foldl (fun request call => (request.addRequestVersion objects call).request) request

/-- The loop of `resolve` over the action parameters. -/
def inheritActionParam (own default : ActionParam) : ActionParam :=
  default.entries.foldl
    (fun own entry =>
      if entry.2.isNone then own
      else if (own.definition entry.1).isSome then own
      else own.insert entry.1 entry.2)
    own

/-- The body of the loop of `resolve` over the versions. -/
def inherit (own default : RequestConf F) : RequestConf F :=
  { own with
    queryid := if own.queryid.isSome then own.queryid else default.queryid
    action := if own.action.isSome then own.action else default.action
    wdbDB := if own.wdbDB.isSome then own.wdbDB else default.wdbDB
    actionParam := inheritActionParam own.actionParam default.actionParam
    paramdef :=
      if default.paramdef.entries.isEmpty then own.paramdef
      else ParamDefConfig.merge own.paramdef default.paramdef }

/-- The loop of `resolve` over the versions. -/
def inheritAll (default : RequestConf F) (versions : List ℕ) (objects : Objects F) : Objects F :=
  versions.foldl (fun objects it => Function.update objects it (inherit (objects it) default))
    objects

/-- The version that `resolve` gives the default settings. -/
def defaultVersion (objects : Objects F) (request : Request F) : Version :=
  let version := request.requestDefault.version
  if version.defaultVersionHighest then
    match request.requestVersions with
    | [] => Version.highest
    | it :: _ => (objects it).version
  else if version.invalid then
    if request.requestVersions.any fun it => (objects it).version = version then version
    else Version.highest
  else version

/-- `Request::resolve`, which writes to the versions and to the request. -/
def resolve (objects : Objects F) (request : Request F) : Objects F × Request F :=
  let objects := inheritAll request.requestDefault request.requestVersions objects
  (objects,
    { request with
      requestDefault :=
        { request.requestDefault with version := defaultVersion objects request } })

end Request

end config

end Wdb2ts
