import Wdb2ts.RequestHandlerManager
import Wdb2ts.ScannedNumbers

/-!
# The most specific handler

The last component of a request path is a version when it begins with a digit.  What remains of the
path is shortened component by component, so that the handler that is found is the one under the
longest tail of the path.
-/

namespace Wdb2ts

namespace webfw

/-! ## The last component of a path -/

/-- The text behind the last slash. -/
def lastComponent (path : Bytes) : Bytes :=
  (path.reverse.takeWhile fun byte => byte ≠ Bytes.chr '/').reverse

/-- The text in front of the last slash. -/
def directory (path : Bytes) : Bytes := path.take (path.length - (lastComponent path).length - 1)

theorem lastComponent_append {last : Bytes} (noSlash : Bytes.chr '/' ∉ last) (front : Bytes) :
    lastComponent (front ++ Bytes.chr '/' :: last) = last := by
  have kept : ∀ byte ∈ last.reverse, decide (byte ≠ Bytes.chr '/') = true := by
    intro byte member
    rw [decide_eq_true_eq]
    rintro rfl
    exact noSlash (List.mem_reverse.mp member)
  rw [lastComponent, List.reverse_append, List.reverse_cons, List.append_assoc,
    List.takeWhile_append_of_pos kept]
  simp

theorem lastComponent_of_not_mem {path : Bytes} (noSlash : Bytes.chr '/' ∉ path) :
    lastComponent path = path := by
  rw [lastComponent, List.takeWhile_eq_self_iff.mpr, List.reverse_reverse]
  intro byte member
  rw [decide_eq_true_eq]
  rintro rfl
  exact noSlash (List.mem_reverse.mp member)

theorem directory_append {last : Bytes} (noSlash : Bytes.chr '/' ∉ last) (front : Bytes) :
    directory (front ++ Bytes.chr '/' :: last) = front := by
  rw [directory, lastComponent_append noSlash, List.length_append, List.length_cons]
  exact List.take_left' (by omega)

theorem directory_of_not_mem {path : Bytes} (noSlash : Bytes.chr '/' ∉ path) :
    directory path = [] := by
  rw [directory, lastComponent_of_not_mem noSlash, Nat.sub_self, Nat.zero_sub, List.take_zero]

/-- A path with a slash is split at its last slash. -/
theorem exists_last {path : Bytes} (slash : Bytes.chr '/' ∈ path) :
    ∃ front last, path = front ++ Bytes.chr '/' :: last ∧ Bytes.chr '/' ∉ last := by
  obtain ⟨behind, rest, split, noSlash⟩ :=
    List.eq_append_cons_of_mem (List.mem_reverse.mpr slash)
  refine ⟨rest.reverse, behind.reverse, ?_, fun member => noSlash (List.mem_reverse.mp member)⟩
  rw [← List.reverse_reverse path, split]
  simp

theorem findLastOf_append {last : Bytes} (noSlash : Bytes.chr '/' ∉ last) (front : Bytes) :
    findLastOf (front ++ Bytes.chr '/' :: last) (Bytes.chr '/') = some front.length := by
  have behind : last.reverse.findIdx? (fun other => other = Bytes.chr '/') = none := by
    rw [List.findIdx?_eq_none_iff]
    intro byte member
    rw [decide_eq_false_iff_not]
    rintro rfl
    exact noSlash (List.mem_reverse.mp member)
  rw [findLastOf, List.reverse_append, List.reverse_cons, List.append_assoc,
    List.findIdx?_append, behind]
  simp [List.findIdx?_cons]

theorem findLastOf_of_not_mem {path : Bytes} (noSlash : Bytes.chr '/' ∉ path) :
    findLastOf path (Bytes.chr '/') = none := by
  rw [findLastOf, List.findIdx?_eq_none_iff.mpr, Option.map_none]
  intro byte member
  rw [decide_eq_false_iff_not]
  rintro rfl
  exact noSlash (List.mem_reverse.mp member)

/-- The path that handlers are searched for. -/
def remainingPath (path : Bytes) : Bytes :=
  rooted (if (lastComponent path).isEmpty || beginsWithDigit (lastComponent path)
    then directory path else path)

theorem decodePath_eq (path : Bytes) :
    decodePath path =
      if beginsWithDigit (lastComponent path) then
        match decodeVersion (lastComponent path) with
        | none =>
            .error (.invalidPath
              (path ++ Bytes.str "( version: " ++ lastComponent path ++ Bytes.str ")"))
        | some version => .ok (remainingPath path, version)
      else .ok (remainingPath path, Version.default) := by
  by_cases slash : Bytes.chr '/' ∈ path
  · obtain ⟨front, last, rfl, noSlash⟩ := exists_last slash
    have behind : (front ++ Bytes.chr '/' :: last).drop (front.length + 1) = last := by
      rw [← List.drop_drop, List.drop_left]
      rfl
    rw [decodePath, findLastOf_append noSlash, remainingPath, lastComponent_append noSlash,
      directory_append noSlash]
    dsimp only
    rw [behind, decodeLast, List.take_left]
    by_cases digit : beginsWithDigit last = true
    · cases decodeVersion last <;> simp [digit]
    · simp [digit]
  · rw [decodePath, findLastOf_of_not_mem slash, remainingPath, lastComponent_of_not_mem slash,
      directory_of_not_mem slash]
    dsimp only
    rw [decodeLast, List.take_zero]
    by_cases digit : beginsWithDigit path = true
    · cases decodeVersion path <;> simp [digit]
    · simp [digit]

/-! ## Versions -/

/-- A text is a version: a major number, and a dot and a minor number behind it, which may be
missing. -/
def WrittenVersion (text : Bytes) (version : Version) : Prop :=
  ∃ major minor : Bytes, major ≠ [] ∧ (∀ byte ∈ major, isDigit byte = true) ∧
    (∀ byte ∈ minor, isDigit byte = true) ∧
      (text = major ∧ minor = [] ∨ text = major ++ Bytes.chr '.' :: minor) ∧
        version = ⟨decimalNumber major 0, decimalNumber minor 0⟩

/-- The numbers of a written version fit in an `int`. -/
def VersionInInt (text : Bytes) : Prop :=
  ∀ version, WrittenVersion text version →
    version.verMajor ≤ 2147483647 ∧ version.verMinor ≤ 2147483647

theorem scanInt_digits {digits : Bytes} (some : digits ≠ [])
    (allDigits : ∀ byte ∈ digits, isDigit byte = true)
    (small : (decimalNumber digits 0 : ℤ) ≤ 2147483647) :
    scanInt digits = Option.some (decimalNumber digits 0 : ℤ) := by
  rw [scanInt_of_beginsWith (beginsWith_digits some allDigits), toInt32_toLong (by omega) small]

theorem decodePart_digits {digits : Bytes} (allDigits : ∀ byte ∈ digits, isDigit byte = true)
    (small : (decimalNumber digits 0 : ℤ) ≤ 2147483647) :
    decodePart digits = some (decimalNumber digits 0 : ℤ) := by
  rw [decodePart]
  split
  · next none =>
      rw [List.isEmpty_iff.mp none]
      rfl
  · next written =>
      rw [List.isEmpty_iff] at written
      have number : isNumber digits = true := List.all_eq_true.mpr allDigits
      rw [if_pos number, atoi, scanInt_digits written allDigits small,
        Option.getD_some]

theorem digits_of_decodePart {text : Bytes} {number : ℤ} (decoded : decodePart text = some number) :
    ∀ byte ∈ text, isDigit byte = true := by
  rw [decodePart] at decoded
  split at decoded
  · next none =>
      rw [List.isEmpty_iff.mp none]
      simp
  · split at decoded
    · next digits => exact List.all_eq_true.mp digits
    · cases decoded

theorem ne_dot_of_isDigit {byte : Byte} (digit : isDigit byte = true) :
    decide (byte ≠ Bytes.chr '.') = true := by
  rw [decide_eq_true_eq]
  rintro rfl
  exact absurd digit (by decide)

/-- The parts of a written version. -/
theorem parts_of_written {text major minor : Bytes}
    (digits : ∀ byte ∈ major, isDigit byte = true)
    (shape : text = major ∧ minor = [] ∨ text = major ++ Bytes.chr '.' :: minor) :
    (text.takeWhile fun byte => byte ≠ Bytes.chr '.') = major ∧
      text.drop (major.length + 1) = minor := by
  have kept : ∀ byte ∈ major, decide (byte ≠ Bytes.chr '.') = true :=
    fun byte member => ne_dot_of_isDigit (digits byte member)
  rcases shape with ⟨rfl, rfl⟩ | rfl
  · exact ⟨List.takeWhile_eq_self_iff.mpr kept, List.drop_eq_nil_of_le (Nat.le_succ _)⟩
  · constructor
    · rw [List.takeWhile_append_of_pos kept]
      simp
    · rw [← List.drop_drop, List.drop_left]
      rfl

/-- A text is cut at its first dot. -/
theorem shape_of_parts {text major : Bytes}
    (isMajor : (text.takeWhile fun byte => byte ≠ Bytes.chr '.') = major) :
    text = major ∧ text.drop (major.length + 1) = [] ∨
      text = major ++ Bytes.chr '.' :: text.drop (major.length + 1) := by
  have split : major ++ (text.dropWhile fun byte => byte ≠ Bytes.chr '.') = text := by
    rw [← isMajor]
    exact List.takeWhile_append_dropWhile
  have behind : text.drop major.length = text.dropWhile fun byte => byte ≠ Bytes.chr '.' := by
    conv_lhs => rw [← split]
    exact List.drop_left
  rw [← List.drop_drop, behind]
  cases rest : text.dropWhile fun byte => byte ≠ Bytes.chr '.' with
  | nil =>
      rw [rest, List.append_nil] at split
      exact Or.inl ⟨split.symm, rfl⟩
  | cons first others =>
      have isDot : first = Bytes.chr '.' := by
        have notKept := List.head?_dropWhile_not (fun byte => decide (byte ≠ Bytes.chr '.')) text
        rw [rest] at notKept
        simpa using notKept
      rw [rest, isDot] at split
      exact Or.inr split.symm

/-- A text that begins with a digit is decoded exactly when it is a version. -/
theorem decodeVersion_eq_some_iff {text : Bytes} (digit : beginsWithDigit text = true)
    (inInt : VersionInInt text) (version : Version) :
    decodeVersion text = some version ↔ WrittenVersion text version := by
  have notEmpty : text.isEmpty = false := by
    cases text with
    | nil => cases digit
    | cons first rest => rfl
  constructor
  · intro decoded
    dsimp only [decodeVersion] at decoded
    rw [if_neg (ne_true_of_eq_false notEmpty)] at decoded
    generalize isMajor : (text.takeWhile fun byte => byte ≠ Bytes.chr '.') = major at decoded
    have shape := shape_of_parts isMajor
    generalize text.drop (major.length + 1) = minor at decoded shape
    split at decoded
    · cases decoded
    · split at decoded
      · next majorNumber minorNumber decodedMajor decodedMinor =>
          cases decoded
          have majorDigits := digits_of_decodePart decodedMajor
          have minorDigits := digits_of_decodePart decodedMinor
          have written : WrittenVersion text ⟨decimalNumber major 0, decimalNumber minor 0⟩ := by
            refine ⟨major, minor, ?_, majorDigits, minorDigits, shape, rfl⟩
            rintro rfl
            rcases shape with ⟨rfl, -⟩ | rfl
            · cases digit
            · have isDot : isDigit (Bytes.chr '.') = true := digit
              exact absurd isDot (by decide)
          have small := inInt _ written
          rw [decodePart_digits majorDigits small.1] at decodedMajor
          rw [decodePart_digits minorDigits small.2] at decodedMinor
          rwa [← Option.some.inj decodedMajor, ← Option.some.inj decodedMinor]
      · cases decoded
  · intro written
    have small := inInt version written
    obtain ⟨major, minor, _, majorDigits, minorDigits, shape, rfl⟩ := written
    obtain ⟨isMajor, isMinor⟩ := parts_of_written majorDigits shape
    have noDot : minor.contains (Bytes.chr '.') = false := by
      rw [List.contains_eq_mem, decide_eq_false_iff_not]
      intro member
      exact absurd (minorDigits _ member) (by decide)
    simp only [decodeVersion, notEmpty, isMajor, isMinor, noDot, Bool.false_eq_true, if_false,
      decodePart_digits majorDigits small.1, decodePart_digits minorDigits small.2]

/-! ## Tails of a path -/

/-- A tail of a path: a suffix that begins with a slash. -/
def IsTail (path suffix : Bytes) : Prop :=
  suffix <:+ path ∧ suffix.head? = some (Bytes.chr '/')

theorem isTail_dropWhile {path suffix : Bytes} (isTail : IsTail path suffix) :
    IsTail (path.dropWhile fun byte => byte ≠ Bytes.chr '/') suffix := by
  induction path with
  | nil => exact isTail
  | cons first rest ih =>
      by_cases slash : first = Bytes.chr '/'
      · rwa [List.dropWhile_cons_of_neg (by simp [slash])]
      · rw [List.dropWhile_cons_of_pos (by simp [slash])]
        rcases List.suffix_cons_iff.mp isTail.1 with rfl | inRest
        · exact absurd (Option.some.inj isTail.2) slash
        · exact ih ⟨inRest, isTail.2⟩

theorem shortened_suffix (path : Bytes) : DefaultRequestHandlerManager.shortened path <:+ path :=
  (List.dropWhile_suffix _).trans (List.drop_suffix 1 path)

theorem head_shortened {path : Bytes} (goesOn : DefaultRequestHandlerManager.shortened path ≠ []) :
    (DefaultRequestHandlerManager.shortened path).head? = some (Bytes.chr '/') := by
  have notSkipped := List.head?_dropWhile_not (fun byte => decide (byte ≠ Bytes.chr '/'))
    (path.drop 1)
  rw [DefaultRequestHandlerManager.shortened] at goesOn ⊢
  cases rest : (path.drop 1).dropWhile fun byte => byte ≠ Bytes.chr '/' with
  | nil => exact absurd rest goesOn
  | cons first others =>
      rw [rest] at notSkipped
      simpa using notSkipped

/-- The other tails of a path are those of the shortened path. -/
theorem isTail_shortened {path suffix : Bytes} (isTail : IsTail path suffix)
    (different : suffix ≠ path) :
    IsTail (DefaultRequestHandlerManager.shortened path) suffix := by
  apply isTail_dropWhile
  cases path with
  | nil => exact isTail
  | cons first rest =>
      exact ⟨(List.suffix_cons_iff.mp isTail.1).resolve_left different, isTail.2⟩

theorem length_shortened_lt {path : Bytes} (notEmpty : path ≠ []) :
    (DefaultRequestHandlerManager.shortened path).length < path.length := by
  have skipped := List.length_dropWhile_le (fun byte => decide (byte ≠ Bytes.chr '/')) (path.drop 1)
  have positive := List.length_pos_iff.mpr notEmpty
  rw [List.length_drop] at skipped
  rw [DefaultRequestHandlerManager.shortened]
  omega

theorem head_rooted (path : Bytes) : (rooted path).head? = some (Bytes.chr '/') := by
  rw [rooted]
  split
  · assumption
  · rfl

namespace DefaultRequestHandlerManager

variable {manager : DefaultRequestHandlerManager} {version : Version} {origPath path : Bytes}

/-- A handler is the one under the longest tail of a path that is registered with a version. -/
def MostSpecific (manager : DefaultRequestHandlerManager) (version : Version) (path : Bytes)
    (handler : RequestHandler) : Prop :=
  ∃ suffix, IsTail path suffix ∧ manager.findRequestHandlerPathImpl suffix version = some handler ∧
    ∀ other, IsTail path other → (manager.findRequestHandlerPathImpl other version).isSome →
      other.length ≤ suffix.length

/-- No tail of a path is registered with a version. -/
def NoneRegistered (manager : DefaultRequestHandlerManager) (version : Version) (path : Bytes) :
    Prop :=
  ∀ suffix, IsTail path suffix → manager.findRequestHandlerPathImpl suffix version = none

/-- The tails of the path that the loop has left behind are not registered. -/
structure Searched (manager : DefaultRequestHandlerManager) (version : Version)
    (origPath path : Bytes) : Prop where
  isTail : IsTail origPath path
  longer : ∀ suffix, IsTail origPath suffix → ¬IsTail path suffix →
    manager.findRequestHandlerPathImpl suffix version = none

/-- What the loop ends with. -/
def Found (manager : DefaultRequestHandlerManager) (version : Version) (origPath : Bytes) :
    Except ServerPageException RequestHandler → Prop
  | .ok handler => manager.MostSpecific version origPath handler
  | .error (.notFound what) => what = origPath ∧ manager.NoneRegistered version origPath
  | .error (.invalidPath _) => False

theorem Searched.mostSpecific (searched : manager.Searched version origPath path)
    {handler : RequestHandler}
    (found : manager.findRequestHandlerPathImpl path version = some handler) :
    manager.MostSpecific version origPath handler := by
  refine ⟨path, searched.isTail, found, fun other isTail registered => ?_⟩
  by_contra longer
  have notBehind : ¬IsTail path other := fun behind => longer behind.1.length_le
  rw [searched.longer other isTail notBehind] at registered
  cases registered

/-- Without the path itself, the tails of its shortened path are left. -/
theorem Searched.behind (searched : manager.Searched version origPath path)
    (absent : manager.findRequestHandlerPathImpl path version = none) {suffix : Bytes}
    (isTail : IsTail origPath suffix) (notShortened : ¬IsTail (shortened path) suffix) :
    manager.findRequestHandlerPathImpl suffix version = none := by
  by_cases inPath : IsTail path suffix
  · by_cases whole : suffix = path
    · rwa [whole]
    · exact absurd (isTail_shortened inPath whole) notShortened
  · exact searched.longer suffix isTail inPath

/-- A round finds the most specific handler, or it goes on with a shorter path. -/
theorem Searched.round (searched : manager.Searched version origPath path) :
    WhileLoop.Round (manager.Searched version origPath) List.length (manager.Found version origPath)
      path (manager.findRound origPath version path) := by
  have notEmpty : path ≠ [] := by
    rintro rfl
    cases searched.isTail.2
  rw [findRound]
  cases found : manager.findRequestHandlerPathImpl path version with
  | some req => exact searched.mostSpecific found
  | none =>
      by_cases ends : path.length = 1 ∨ (shortened path).isEmpty
      · have nothing : shortened path = [] := by
          rcases ends with single | empty
          · exact List.length_eq_zero_iff.mp
              (Nat.lt_one_iff.mp (single ▸ length_shortened_lt notEmpty))
          · exact List.isEmpty_iff.mp empty
        dsimp only
        rw [if_pos ends]
        refine ⟨rfl, fun suffix isTail => searched.behind found isTail ?_⟩
        rw [nothing]
        rintro ⟨inNothing, slash⟩
        rw [List.suffix_nil.mp inNothing] at slash
        cases slash
      · dsimp only
        rw [if_neg ends]
        rw [not_or, List.isEmpty_iff] at ends
        refine ⟨⟨?_, fun suffix isTail => searched.behind found isTail⟩,
          length_shortened_lt notEmpty⟩
        exact ⟨(shortened_suffix path).trans searched.isTail.1, head_shortened ends.2⟩

/-- The loop ends, and it finds the most specific handler if there is one. -/
theorem exists_found (manager : DefaultRequestHandlerManager) (version : Version) {path : Bytes}
    (slash : path.head? = some (Bytes.chr '/')) :
    ∃ result, WhileLoop.runUntil (manager.findRound path version) (path.length + 1) path =
      some result ∧ manager.Found version path result :=
  WhileLoop.runUntil_of_rounds (fun _ searched => Searched.round searched)
    (⟨⟨List.suffix_refl path, slash⟩, fun _ isTail notTail => absurd isTail notTail⟩ :
      manager.Searched version path path)
    (Nat.lt_succ_self _)

theorem MostSpecific.unique {handler other : RequestHandler}
    (first : manager.MostSpecific version path handler)
    (second : manager.MostSpecific version path other) : handler = other := by
  obtain ⟨suffix, isTail, found, longest⟩ := first
  obtain ⟨otherSuffix, otherTail, otherFound, otherLongest⟩ := second
  have shorter := otherLongest suffix isTail (by rw [found]; rfl)
  have longer := longest otherSuffix otherTail (by rw [otherFound]; rfl)
  have same : suffix = otherSuffix :=
    (List.suffix_of_suffix_length_le isTail.1 otherTail.1 shorter).eq_of_length
      (Nat.le_antisymm shorter longer)
  rw [same, otherFound] at found
  exact (Option.some.inj found).symm

theorem MostSpecific.not_noneRegistered {handler : RequestHandler}
    (specific : manager.MostSpecific version path handler) :
    ¬manager.NoneRegistered version path := by
  obtain ⟨suffix, isTail, found, _⟩ := specific
  intro none
  rw [none suffix isTail] at found
  cases found

/-- The result tells whether a handler is registered, and which is the most specific one. -/
theorem Found.iff {result : Except ServerPageException RequestHandler}
    (found : manager.Found version path result) :
    (∀ handler, result = .ok handler ↔ manager.MostSpecific version path handler) ∧
      ((∃ what, result = .error (.notFound what)) ↔ manager.NoneRegistered version path) := by
  cases result with
  | ok handler =>
      constructor
      · intro other
        constructor
        · rintro same
          cases same
          exact found
        · intro specific
          rw [MostSpecific.unique found specific]
      · exact ⟨nofun, fun none => absurd none (MostSpecific.not_noneRegistered found)⟩
  | error exception =>
      cases exception with
      | invalidPath what => exact found.elim
      | notFound what =>
          constructor
          · exact fun handler => ⟨nofun, fun specific => absurd found.2 specific.not_noneRegistered⟩
          · exact ⟨fun _ => found.2, fun _ => ⟨what, rfl⟩⟩

/-- The version that a path requests: its last component if that begins with a digit, and the
default version otherwise. -/
def RequestedVersion (path : Bytes) (version : Version) : Prop :=
  if beginsWithDigit (lastComponent path) then WrittenVersion (lastComponent path) version
  else version = Version.default

theorem Found.not_invalidPath {result : Except ServerPageException RequestHandler}
    (found : manager.Found version path result) :
    ¬∃ what, result = .error (.invalidPath what) := by
  rintro ⟨what, rfl⟩
  exact found

theorem findRequestHandlerPath_of_error (manager : DefaultRequestHandlerManager) {pathIn : Bytes}
    (notEmpty : pathIn ≠ []) {exception : ServerPageException}
    (decoded : decodePath pathIn = .error exception) :
    manager.findRequestHandlerPath pathIn = some (.error exception) := by
  rw [findRequestHandlerPath, if_neg (mt List.isEmpty_iff.mp notEmpty), decoded]

theorem findRequestHandlerPath_of_ok (manager : DefaultRequestHandlerManager) {pathIn : Bytes}
    (notEmpty : pathIn ≠ []) (decoded : decodePath pathIn = .ok (remainingPath pathIn, version)) :
    ∃ result, manager.findRequestHandlerPath pathIn = some result ∧
      manager.Found version (remainingPath pathIn) result := by
  rw [findRequestHandlerPath, if_neg (mt List.isEmpty_iff.mp notEmpty), decoded]
  exact manager.exists_found version (head_rooted _)

/-- A lookup ends.  It raises `InvalidPath` exactly when the last component begins with a digit and
is no version, it finds the handler under the longest tail of the remaining path that is registered
with the requested version, and it raises `NotFound` exactly when there is none. -/
theorem findRequestHandlerPath_mostSpecific (manager : DefaultRequestHandlerManager)
    {pathIn : Bytes} (notEmpty : pathIn ≠ []) (inInt : VersionInInt (lastComponent pathIn)) :
    ∃ result, manager.findRequestHandlerPath pathIn = some result ∧
      ((∃ what, result = .error (.invalidPath what)) ↔
        beginsWithDigit (lastComponent pathIn) = true ∧
          ∀ version, ¬WrittenVersion (lastComponent pathIn) version) ∧
      ∀ version, RequestedVersion pathIn version →
        (∀ handler, result = .ok handler ↔
          manager.MostSpecific version (remainingPath pathIn) handler) ∧
        ((∃ what, result = .error (.notFound what)) ↔
          manager.NoneRegistered version (remainingPath pathIn)) := by
  by_cases digit : beginsWithDigit (lastComponent pathIn) = true
  · have decoded := decodePath_eq pathIn
    have written := decodeVersion_eq_some_iff digit inInt
    rw [if_pos digit] at decoded
    cases read : decodeVersion (lastComponent pathIn) with
    | none =>
        have invalid : ∀ version, ¬WrittenVersion (lastComponent pathIn) version := by
          intro version isVersion
          rw [← written, read] at isVersion
          cases isVersion
        rw [read] at decoded
        refine ⟨_, findRequestHandlerPath_of_error manager notEmpty decoded, ?_, ?_⟩
        · exact ⟨fun _ => ⟨digit, invalid⟩, fun _ => ⟨_, rfl⟩⟩
        · intro version requested
          rw [RequestedVersion, if_pos digit] at requested
          exact absurd requested (invalid version)
    | some version =>
        rw [read] at decoded
        obtain ⟨result, ends, found⟩ := findRequestHandlerPath_of_ok manager notEmpty decoded
        refine ⟨result, ends, ?_, ?_⟩
        · have isVersion := (written version).mp read
          exact ⟨fun invalid => absurd invalid found.not_invalidPath,
            fun none => absurd isVersion (none.2 version)⟩
        · intro other requested
          rw [RequestedVersion, if_pos digit, ← written, read, Option.some.injEq] at requested
          rw [← requested]
          exact found.iff
  · have decoded := decodePath_eq pathIn
    rw [if_neg digit] at decoded
    obtain ⟨result, ends, found⟩ := findRequestHandlerPath_of_ok manager notEmpty decoded
    refine ⟨result, ends, ?_, ?_⟩
    · exact ⟨fun invalid => absurd invalid found.not_invalidPath,
        fun none => absurd none.1 digit⟩
    · intro other requested
      rw [RequestedVersion, if_neg digit] at requested
      rw [requested]
      exact found.iff

/-- A handler that is registered under `/b` is found for `/a/b/1.2`. -/
theorem findRequestHandlerPath_mostSpecific_shortened :
    let handler : RequestHandler := ⟨0, ⟨1, 2⟩⟩
    let manager := (create.addRequestHandler handler (Bytes.str "/b")).2
    ∃ result, manager.findRequestHandlerPath (Bytes.str "/a/b/1.2") = some result ∧
      result = .ok handler ∧ manager.MostSpecific ⟨1, 2⟩ (Bytes.str "/a/b") handler := by
  intro handler manager
  have inInt : VersionInInt (lastComponent (Bytes.str "/a/b/1.2")) := by
    rintro version ⟨major, minor, -, digits, -, shape, rfl⟩
    obtain ⟨rfl, rfl⟩ := parts_of_written digits shape
    decide
  have written : RequestedVersion (Bytes.str "/a/b/1.2") ⟨1, 2⟩ :=
    ⟨Bytes.str "1", Bytes.str "2", by decide, by decide +kernel, by decide +kernel, Or.inr rfl, rfl⟩
  obtain ⟨result, ends, -, found⟩ :=
    manager.findRequestHandlerPath_mostSpecific (by decide) inInt
  have isHandler : result = .ok handler := by
    apply Option.some.inj
    rw [← ends]
    rfl
  exact ⟨result, ends, isHandler, ((found _ written).1 handler).mp isHandler⟩

end DefaultRequestHandlerManager

end webfw

end Wdb2ts
