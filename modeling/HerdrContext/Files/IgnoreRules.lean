import HerdrContext.Files.Ignore
import HerdrContext.Library.Priced
import HerdrContext.Worker.ReadLimited

/-! The ignore rules on the way to a directory, collected with and
without the budget of a search. -/
namespace HerdrContext.Files.Enumeration

open Library
open Worker (IoError Read Stream)

def maxIgnoreFileBytes : Nat := 1048576
def maxSearchMatcherComponents : Nat := 4096
def maxSearchIgnoreBytes : Nat := 4 * 1048576
def maxSearchIgnoreRules : Nat := 100000

/-! ## What is outside -/

structure Metadata where
  isSymlink : Bool
  isDir : Bool
  isFile : Bool
  len : Nat

/-- A file system that does not change, seen from its open directories. -/
structure Disk (δ : Type) where
  tryClone : δ → Except IoError δ
  /-- `open_child_directory_nofollow`. -/
  openChild : δ → FileName → Except IoError δ
  entries : δ → Except IoError (List (Except IoError FileName))
  symlinkMetadata : δ → FileName → Except IoError Metadata
  /-- `open_file_nofollow`, with what the reads of the file then deliver. -/
  openFile : δ → FileName → Except IoError Stream

inductive Match where
  | none | ignore | whitelist
  deriving DecidableEq

/-- The crate that reads and matches ignore rules. -/
structure Gitignore (β γ : Type) where
  builder : PathBuf → β
  addLine : β → PathBuf → String → Except String β
  build : β → Except String γ
  matchedPathOrAnyParents : γ → PathBuf → Bool → Match

/-! ## Lines -/

def splitInclusive : List Char → List (List Char)
  | [] => []
  | c :: rest =>
    if c = '\n' then [c] :: splitInclusive rest
    else match splitInclusive rest with
      | [] => [[c]]
      | line :: lines => (c :: line) :: lines

def stripLineEnd (line : List Char) : List Char :=
  if line.getLast? = some '\n' then
    let line := line.dropLast
    if line.getLast? = some '\r' then line.dropLast else line
  else line

/-- `str::lines`. -/
def lines (text : String) : List String :=
  (splitInclusive text.toList).map fun line => String.ofList (stripLineEnd line)

/-- `line.strip_prefix('\u{feff}').unwrap_or(line)`. -/
def stripByteOrderMark (line : String) : String :=
  match line.toList with
  | [] => line
  | c :: rest => if c = Char.ofNat 0xFEFF then String.ofList rest else line

/-! ## Budgets -/

inductive Charge where
  | checkpoint
  | component
  | matcher (bytes rules : Nat)

/-- `loads` counts how often the cancellation flags were looked at. -/
structure MatcherBudget where
  remainingComponents : Nat
  remainingBytes : Nat
  remainingRules : Nat
  loads : Nat

def searchBudgetExhausted : IoError := ⟨.invalidData, "file search ignore budget was exhausted"⟩

def searchCancelled : IoError := ⟨.interrupted, "file search was cancelled"⟩

namespace MatcherBudget

def new : MatcherBudget where
  remainingComponents := maxSearchMatcherComponents
  remainingBytes := maxSearchIgnoreBytes
  remainingRules := maxSearchIgnoreRules
  loads := 0

/-- `cancelled` is what each look at the two flags finds: that one of them is set. -/
def checkpoint (cancelled : Nat → Bool) (self : MatcherBudget) : Except IoError MatcherBudget := do
  rejectIf (cancelled self.loads) searchCancelled
  return { self with loads := self.loads + 1 }

def consumeComponent (cancelled : Nat → Bool) (self : MatcherBudget) :
    Except IoError MatcherBudget := do
  let self ← self.checkpoint cancelled
  rejectIf (self.remainingComponents = 0) searchBudgetExhausted
  return { self with remainingComponents := self.remainingComponents - 1 }

def consumeMatcher (cancelled : Nat → Bool) (self : MatcherBudget) (bytes rules : Nat) :
    Except IoError MatcherBudget := do
  let self ← self.checkpoint cancelled
  rejectIf (self.remainingBytes < bytes ∨ self.remainingRules < rules) searchBudgetExhausted
  return { self with
    remainingBytes := self.remainingBytes - bytes
    remainingRules := self.remainingRules - rules }

def pay (cancelled : Nat → Bool) (self : MatcherBudget) : Charge → Except IoError MatcherBudget
  | .checkpoint => self.checkpoint cancelled
  | .component => self.consumeComponent cancelled
  | .matcher bytes rules => self.consumeMatcher cancelled bytes rules

end MatcherBudget

/-! ## Ignore files -/

/-- A component of a path: a name, or one of the root, `.` and `..`. -/
inductive Component where
  | normal (name : FileName)
  | special

def invalidRelativePath : IoError :=
  ⟨.invalidInput, "tree path must be root-relative and normalized"⟩

/-- The names of a path that has no other components. -/
def validateRelativeDirectory (path : List Component) : Except IoError RelativePath :=
  path.mapM fun
    | .normal name => .ok name
    | .special => .error invalidRelativePath

structure IgnorePolicy (δ : Type) where
  rootPath : PathBuf
  root : δ
  ignoreRootPath : PathBuf
  ignoreRoot : δ
  filesPrefix : RelativePath
  isVisible : RelativePath → Bool
  gitignoreEnabled : Bool
  showIgnored : Bool

def dotGit : FileName := ⟨".git".toUTF8.toList, by decide +kernel⟩
def info : FileName := ⟨"info".toUTF8.toList, by decide +kernel⟩
def exclude : FileName := ⟨"exclude".toUTF8.toList, by decide +kernel⟩
def dotGitignore : FileName := ⟨".gitignore".toUTF8.toList, by decide +kernel⟩

/-- The reads of an ignore file through `take`, each behind a checkpoint. -/
def readIgnoreFile (failure : Option IoError) : Bytes → List Read → Priced Charge IoError Bytes
  | bytes, [] => do
    Priced.charge .checkpoint
    match failure with
    | none => return bytes
    | some error => Priced.fail error
  | _, .interrupted :: _ => do
    Priced.charge .checkpoint
    Priced.fail ⟨.interrupted, "Interrupted system call (os error 4)"⟩
  | bytes, .chunk read _ _ :: rest => do
    Priced.charge .checkpoint
    let bytes := bytes ++ read.take (maxIgnoreFileBytes + 1 - bytes.length)
    if maxIgnoreFileBytes < bytes.length then Priced.fail searchBudgetExhausted
    else readIgnoreFile failure bytes rest

section
variable {δ β γ : Type} (disk : Disk δ) (gitignores : Gitignore β γ)

def isIgnored (matchers : List γ) (path : PathBuf) (isDirectory : Bool) : Bool :=
  matchers.foldl (fun ignored matcher =>
    match gitignores.matchedPathOrAnyParents matcher path isDirectory with
    | .ignore => true
    | .whitelist => false
    | .none => ignored) false

/-- The rules of a file's text, added line by line. -/
def buildMatcher (matcherRoot source : PathBuf) (contents : String) : Except IoError γ := do
  let builder ← (lines contents).zipIdx.foldlM (fun builder (line, index) =>
    let line := if index = 0 then stripByteOrderMark line else line
    mapError (fun message => ⟨.invalidData, message⟩) (gitignores.addLine builder source line))
    (gitignores.builder matcherRoot)
  mapError (fun message => ⟨.invalidData, message⟩) (gitignores.build builder)

def matcherFromFile (directory : δ) (name : FileName) (matcherRoot source : PathBuf) :
    Priced Charge IoError (Option γ) := do
  Priced.charge .checkpoint
  match disk.symlinkMetadata directory name with
  | .error error => if error.kind = .notFound then return none else Priced.fail error
  | .ok metadata =>
    if metadata.isSymlink ∨ ¬metadata.isFile then
      Priced.fail ⟨.invalidData, "ignore source must be a regular file"⟩
    else if maxIgnoreFileBytes < metadata.len then Priced.fail searchBudgetExhausted
    else do
      let file ← disk.openFile directory name
      let bytes ← readIgnoreFile file.failure [] file.reads
      -- The text of this error goes on with the place in the file.
      let invalidUtf8 : IoError := ⟨.invalidData, "invalid utf-8 sequence"⟩
      let contents ← okOr invalidUtf8 (toStr bytes)
      Priced.charge (.matcher (strLen contents) (lines contents).length)
      let matcher ← buildMatcher gitignores matcherRoot source contents
      return some matcher

variable (policy : IgnorePolicy δ)

def gitignore (directory : δ) (relative : RelativePath) : Priced Charge IoError (Option γ) :=
  let matcherRoot := policy.ignoreRootPath.join relative
  matcherFromFile disk gitignores directory dotGitignore matcherRoot
    (matcherRoot.join [dotGitignore])

def gitExclude : Priced Charge IoError (Option γ) := do
  Priced.charge .component
  match disk.openChild policy.ignoreRoot dotGit with
  | .error error =>
    if error.kind = .notFound ∨ error.kind = .notADirectory then return none
    else Priced.fail error
  | .ok git => do
    Priced.charge .component
    match disk.openChild git info with
    | .error error => if error.kind = .notFound then return none else Priced.fail error
    | .ok info =>
      matcherFromFile disk gitignores info exclude policy.ignoreRootPath
        (policy.ignoreRootPath.join [dotGit, Enumeration.info, exclude])

/-- The matchers of the directories on the way, up to one that is ignored. -/
def matchersBelow : δ → RelativePath → List γ → List FileName →
    Priced Charge IoError (List γ × Bool)
  | _, _, matchers, [] => return (matchers, false)
  | directory, above, matchers, name :: rest => do
    Priced.charge .component
    let relative := above ++ [name]
    if isIgnored gitignores matchers (policy.ignoreRootPath.join relative) true then
      return (matchers, true)
    else
      let directory ← disk.openChild directory name
      let matcher ←
        if policy.gitignoreEnabled then gitignore disk gitignores policy directory relative
        else pure none
      matchersBelow directory relative (matchers ++ matcher.toList) rest

def ignoreMatchers (path : List Component) : Priced Charge IoError (List γ × Bool) := do
  let relativeDirectory ← validateRelativeDirectory path
  Priced.charge .checkpoint
  let directory ← disk.tryClone policy.ignoreRoot
  let matchers ←
    if policy.gitignoreEnabled then do
      let excluded ← gitExclude disk gitignores policy
      let matcher ← gitignore disk gitignores policy directory []
      pure (excluded.toList ++ matcher.toList)
    else pure []
  matchersBelow disk gitignores policy directory [] matchers (policy.filesPrefix ++ relativeDirectory)

def openDirectoryFrom : δ → List FileName → Priced Charge IoError δ
  | directory, [] => return directory
  | directory, name :: rest => do
    Priced.charge .component
    let directory ← disk.openChild directory name
    openDirectoryFrom directory rest

def openDirectoryBounded (path : List Component) : Priced Charge IoError δ := do
  let relativeDirectory ← validateRelativeDirectory path
  Priced.charge .checkpoint
  let directory ← disk.tryClone policy.root
  openDirectoryFrom disk directory relativeDirectory

def openDirectoryWithMatchers (path : List Component) :
    Priced Charge IoError (δ × List γ × Bool) := do
  let directory ← openDirectoryBounded disk policy path
  let (matchers, ancestorIgnored) ← ignoreMatchers disk gitignores policy path
  return (directory, matchers, ancestorIgnored)

end

end HerdrContext.Files.Enumeration
