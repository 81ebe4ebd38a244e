import HerdrContext.Library.Gather
import HerdrContext.Worker.Runtime

/-! The readers of a subprocess and of Git. Both read a stream to its end and
keep what they read within a limit. -/
namespace HerdrContext.Worker

open Library
open WorkerRuntime (usizeMax)

structure IoError where
  kind : IoErrorKind
  message : String

/-- A call of `read` with the buffer of 8192 bytes that is not the last one. -/
inductive Read where
  | interrupted
  | chunk (bytes : Bytes) (nonempty : bytes ≠ []) (fits : bytes.length ≤ 8192)

def Read.bytes : Read → Bytes
  | .interrupted => []
  | .chunk bytes _ _ => bytes

/-- What the reads deliver, one behind the other. -/
def contents (reads : List Read) : Bytes := (reads.map Read.bytes).flatten

/-- The reads of a stream up to its last one, which fails or finds the end. -/
structure Stream where
  reads : List Read
  failure : Option IoError

inductive ReadResult where
  | ok (bytes : Bytes)
  | error (error : IoError)
  /-- The unsigned subtraction of the Git reader goes below zero. -/
  | underflow

/-- A run of a reader: its result, whether it has stored `exceeded`, and the
lengths of `bytes` after each of its extensions. -/
structure Reading where
  result : ReadResult
  exceeded : Bool := false
  held : List Nat := []

def Reading.after (bytes : Bytes) (reading : Reading) : Reading :=
  { reading with held := bytes.length :: reading.held }

/-- The last read. -/
def finish (failure : Option IoError) (bytes : Bytes) : ReadResult :=
  match failure with
  | none => .ok bytes
  | some error => .error error

/-! ## Subprocesses -/

namespace Process

def limitError : IoError := ⟨.invalidData, "subprocess stream exceeded limit"⟩

def readFrom (limit : Nat) (failure : Option IoError) : (bytes : Bytes) → List Read → Reading
  | bytes, [] => { result := finish failure bytes }
  | bytes, .interrupted :: rest => readFrom limit failure bytes rest
  | bytes, .chunk read _ _ :: rest =>
    if limit - bytes.length < read.length then { result := .error limitError, exceeded := true }
    else (readFrom limit failure (bytes ++ read) rest).after (bytes ++ read)

def readLimited (stream : Stream) (limit : Nat) : Reading :=
  readFrom limit stream.failure [] stream.reads

end Process

/-! ## Git -/

/-- The capacity a vector of bytes has after `try_reserve_exact`, if there is memory. -/
structure Allocator where
  tryReserveExact : (capacity len additional : Nat) → Except String Nat
  le_of_tryReserveExact : ∀ capacity len additional reserved,
    tryReserveExact capacity len additional = .ok reserved → len + additional ≤ reserved

/-- Every vector of at most `limit` bytes finds room. -/
def Allocator.Serves (allocator : Allocator) (limit : Nat) : Prop :=
  ∀ capacity len additional, len + additional ≤ limit →
    ∃ reserved, allocator.tryReserveExact capacity len additional = .ok reserved

namespace Git

def limitError : IoError := ⟨.invalidData, "Git stream exceeded its output limit"⟩

def saturatingMul (left right : Nat) : Nat := min (left * right) usizeMax

def checkedSub (left right : Nat) : Option Nat := if right ≤ left then some (left - right) else none

/-- The capacity asked for. -/
def growTarget (limit capacity required : Nat) : Nat :=
  min (max (saturatingMul capacity 2) required) limit

/-- Room for `required` bytes in a vector that holds `len`. -/
def reserve (allocator : Allocator) (limit capacity len required : Nat) :
    Except ReadResult Nat :=
  if capacity < required then do
    let additional ← okOr .underflow (checkedSub (growTarget limit capacity required) len)
    mapError (fun message => .error ⟨.other, message⟩)
      (allocator.tryReserveExact capacity len additional)
  else .ok capacity

def readFrom (allocator : Allocator) (limit : Nat) (failure : Option IoError) :
    (capacity : Nat) → (bytes : Bytes) → List Read → Reading
  | _, bytes, [] => { result := finish failure bytes }
  | capacity, bytes, .interrupted :: rest => readFrom allocator limit failure capacity bytes rest
  | capacity, bytes, .chunk read _ _ :: rest =>
    if limit - bytes.length < read.length then { result := .error limitError, exceeded := true }
    else
      match reserve allocator limit capacity bytes.length (bytes.length + read.length) with
      | .error result => { result }
      | .ok capacity =>
        (readFrom allocator limit failure capacity (bytes ++ read) rest).after (bytes ++ read)

/-- The vector starts with the capacity that `with_capacity(limit.min(8192))` gives it. -/
def readLimited (allocator : Allocator) (capacity : Nat) (stream : Stream) (limit : Nat) :
    Reading :=
  readFrom allocator limit stream.failure capacity [] stream.reads

end Git

/-! ## The growth of the vector -/

theorem length_add_le {limit : Nat} {bytes read : Bytes} (hread : read ≠ [])
    (h : ¬ limit - bytes.length < read.length) : bytes.length + read.length ≤ limit := by
  have hpos := List.length_pos_iff.mpr hread
  omega

section

variable {allocator : Allocator} {limit capacity len required : Nat}

theorem le_growTarget (h : required ≤ limit) : required ≤ Git.growTarget limit capacity required :=
  le_min (le_max_right _ _) h

theorem growTarget_le : Git.growTarget limit capacity required ≤ limit := Nat.min_le_right _ _

variable (capacity) in
theorem checkedSub_growTarget (hlen : len ≤ required) (hrequired : required ≤ limit) :
    ∃ additional, Git.checkedSub (Git.growTarget limit capacity required) len = some additional ∧
      required ≤ len + additional ∧ len + additional ≤ limit := by
  have hroom : required ≤ Git.growTarget limit capacity required := le_growTarget hrequired
  have hbound : Git.growTarget limit capacity required ≤ limit := growTarget_le
  refine ⟨Git.growTarget limit capacity required - len, if_pos (by omega), ?_, ?_⟩
  · omega
  · omega

variable (allocator capacity) in
/-- The vector has room for what is read, or there is no memory. -/
theorem reserve_cases (hlen : len ≤ required) (hrequired : required ≤ limit) :
    (∃ reserved, Git.reserve allocator limit capacity len required = .ok reserved ∧
        required ≤ reserved) ∨
      ∃ message additional, Git.reserve allocator limit capacity len required =
          .error (.error ⟨.other, message⟩) ∧ len + additional ≤ limit ∧
        allocator.tryReserveExact capacity len additional = .error message := by
  unfold Git.reserve
  split
  next =>
    have ⟨additional, hsub, hroom, hbound⟩ := checkedSub_growTarget capacity hlen hrequired
    simp only [hsub, okOr, ok_bind]
    cases htry : allocator.tryReserveExact capacity len additional with
    | ok reserved =>
      have henough := allocator.le_of_tryReserveExact _ _ _ _ htry
      exact Or.inl ⟨reserved, rfl, by omega⟩
    | error message => exact Or.inr ⟨message, additional, rfl, hbound, htry⟩
  next hroom => exact Or.inl ⟨capacity, rfl, by omega⟩

end

/-! ## Both readers -/

/-- The result of a reader that gathers these bytes, or none. -/
def gathered (limitError : IoError) (failure : Option IoError) : Option Bytes → ReadResult
  | none => .error limitError
  | some bytes => finish failure bytes

section

variable (limit : Nat) (failure : Option IoError)

theorem process_gathers (bytes : Bytes) (reads : List Read) :
    (Process.readFrom limit failure bytes reads).result =
        gathered Process.limitError failure (gather limit bytes (reads.map Read.bytes)) ∧
      (Process.readFrom limit failure bytes reads).exceeded =
        (gather limit bytes (reads.map Read.bytes)).isNone := by
  induction reads generalizing bytes with
  | nil => exact ⟨rfl, rfl⟩
  | cons read rest ih =>
    cases read with
    | interrupted =>
      rw [List.map_cons, Read.bytes, gather_nil_cons]
      exact ih bytes
    | chunk read hread _ =>
      rw [List.map_cons, Read.bytes, Process.readFrom]
      split
      next hexceeds =>
        rw [gather_cons_of_lt hexceeds]
        exact ⟨rfl, rfl⟩
      next hfits =>
        rw [gather_cons_of_not_lt hfits]
        exact ih (bytes ++ read)

theorem process_held (bytes : Bytes) (reads : List Read) :
    ∀ count ∈ (Process.readFrom limit failure bytes reads).held, count ≤ limit := by
  induction reads generalizing bytes with
  | nil => simp [Process.readFrom]
  | cons read rest ih =>
    cases read with
    | interrupted => exact ih bytes
    | chunk read hread _ =>
      rw [Process.readFrom]
      split
      next => simp
      next hfits =>
        apply List.forall_mem_cons.mpr ⟨?_, ih (bytes ++ read)⟩
        rw [List.length_append]
        exact length_add_le hread hfits

variable (allocator : Allocator)

/-- The Git reader does not go below zero and holds no more than its limit. -/
theorem git_safe (capacity : Nat) (bytes : Bytes) (reads : List Read) :
    (Git.readFrom allocator limit failure capacity bytes reads).result ≠ .underflow ∧
      ∀ count ∈ (Git.readFrom allocator limit failure capacity bytes reads).held,
        count ≤ limit := by
  induction reads generalizing capacity bytes with
  | nil => cases failure <;> simp [Git.readFrom, finish]
  | cons read rest ih =>
    cases read with
    | interrupted => exact ih capacity bytes
    | chunk read hread _ =>
      rw [Git.readFrom]
      split
      next => simp
      next hfits =>
        have hrequired := length_add_le hread hfits
        rcases reserve_cases allocator capacity
          (Nat.le_add_right bytes.length read.length) hrequired with
          ⟨reserved, hreserved, _⟩ | ⟨message, _, hfailed, _⟩
        · rw [hreserved]
          have ⟨hresult, hheld⟩ := ih reserved (bytes ++ read)
          apply And.intro hresult
          apply List.forall_mem_cons.mpr ⟨?_, hheld⟩
          rwa [List.length_append]
        · simp [hfailed]

variable {allocator}

/-- With memory for `limit` bytes, the Git reader does as the other one does. -/
theorem git_simulates (hserves : allocator.Serves limit) (capacity : Nat) (bytes : Bytes)
    (reads : List Read) :
    (Git.readFrom allocator limit failure capacity bytes reads).result =
        gathered Git.limitError failure (gather limit bytes (reads.map Read.bytes)) ∧
      (Git.readFrom allocator limit failure capacity bytes reads).exceeded =
        (Process.readFrom limit failure bytes reads).exceeded ∧
      (Git.readFrom allocator limit failure capacity bytes reads).held =
        (Process.readFrom limit failure bytes reads).held := by
  induction reads generalizing capacity bytes with
  | nil => exact ⟨rfl, rfl, rfl⟩
  | cons read rest ih =>
    cases read with
    | interrupted =>
      rw [List.map_cons, Read.bytes, gather_nil_cons]
      exact ih capacity bytes
    | chunk read hread _ =>
      rw [List.map_cons, Read.bytes, Git.readFrom, Process.readFrom]
      split
      next hexceeds =>
        rw [gather_cons_of_lt hexceeds]
        exact ⟨rfl, rfl, rfl⟩
      next hfits =>
        have hrequired := length_add_le hread hfits
        rcases reserve_cases allocator capacity
          (Nat.le_add_right bytes.length read.length) hrequired with
          ⟨reserved, hreserved, _⟩ | ⟨message, additional, _, hbound, htry⟩
        · rw [hreserved, gather_cons_of_not_lt hfits]
          have ⟨hresult, hexceeded, hheld⟩ := ih reserved (bytes ++ read)
          exact ⟨hresult, hexceeded, congrArg ((bytes ++ read).length :: ·) hheld⟩
        · have ⟨reserved, hserved⟩ := hserves capacity bytes.length additional hbound
          rw [htry] at hserved
          contradiction

end

/-- The run of a reader on a stream that delivers these bytes and then ends. -/
structure Bounded (limit : Nat) (total : Bytes) (reading : Reading) : Prop where
  ok_iff : ∀ bytes, reading.result = .ok bytes ↔ bytes = total ∧ total.length ≤ limit
  exceeded_iff : reading.exceeded = true ↔ limit < total.length
  error : limit < total.length → ∃ error, reading.result = .error error
  held : ∀ count ∈ reading.held, count ≤ limit

theorem bounded_of_gathered {limit : Nat} {reads : List Read} {limitError : IoError}
    {reading : Reading}
    (hresult : reading.result =
      gathered limitError none (gather limit [] (reads.map Read.bytes)))
    (hexceeded : reading.exceeded = (gather limit [] (reads.map Read.bytes)).isNone)
    (hheld : ∀ count ∈ reading.held, count ≤ limit) : Bounded limit (contents reads) reading := by
  rw [gather_eq (Nat.zero_le limit), List.nil_append] at hresult hexceeded
  change reading.result = gathered limitError none
    (if (contents reads).length ≤ limit then some (contents reads) else none) at hresult
  change reading.exceeded =
    (if (contents reads).length ≤ limit then some (contents reads) else none).isNone at hexceeded
  by_cases hfits : (contents reads).length ≤ limit
  · rw [if_pos hfits] at hresult hexceeded
    have hfinish : reading.result = .ok (contents reads) := hresult
    exact {
      ok_iff := fun bytes => by
        rw [hfinish, ReadResult.ok.injEq, eq_comm]
        exact (and_iff_left hfits).symm
      exceeded_iff := by
        rw [hexceeded]
        simpa using hfits
      error := fun hlt => absurd hfits (by omega)
      held := hheld }
  · rw [if_neg hfits] at hresult hexceeded
    have herror : reading.result = .error limitError := hresult
    exact {
      ok_iff := fun bytes => by
        rw [herror]
        simp [hfits]
      exceeded_iff := by
        rw [hexceeded]
        simpa using hfits
      error := fun _ => ⟨limitError, herror⟩
      held := hheld }

/-- Both readers deliver a stream that fits, and reject one that does not
before they hold more than the limit. -/
theorem readLimited_bounded (limit : Nat) (reads : List Read) (allocator : Allocator)
    (capacity : Nat) :
    let process := Process.readLimited ⟨reads, none⟩ limit
    let git := Git.readLimited allocator capacity ⟨reads, none⟩ limit
    Bounded limit (contents reads) process ∧ git.result ≠ .underflow ∧
      (∀ count ∈ git.held, count ≤ limit) ∧
      (allocator.Serves limit → Bounded limit (contents reads) git ∧ git.held = process.held) := by
  intro process git
  have ⟨hresult, hexceeded⟩ := process_gathers limit none [] reads
  have ⟨hsafe, hheld⟩ := git_safe limit none allocator capacity [] reads
  have hprocess : Bounded limit (contents reads) process :=
    bounded_of_gathered hresult hexceeded (process_held limit none [] reads)
  refine ⟨hprocess, hsafe, hheld, fun hserves => ?_⟩
  have ⟨hgit, hflag, hsame⟩ := git_simulates limit none hserves capacity [] reads
  exact ⟨bounded_of_gathered hgit (hflag.trans hexceeded) hheld, hsame⟩

/-- An allocator that gives exactly what is asked for. -/
def exactAllocator : Allocator where
  tryReserveExact _ len additional := .ok (len + additional)
  le_of_tryReserveExact _ _ _ _ h := (Except.ok.inj h).le

theorem readLimited_bounded_two :
    Bounded 3 [1, 2] (Git.readLimited exactAllocator 0
      ⟨[.chunk [1] (by decide) (by decide), .interrupted, .chunk [2] (by decide) (by decide)],
        none⟩ 3) :=
  have ⟨_, _, _, hgit⟩ := readLimited_bounded 3
    [.chunk [1] (by decide) (by decide), .interrupted, .chunk [2] (by decide) (by decide)]
    exactAllocator 0
  (hgit fun _ len additional _ => ⟨len + additional, rfl⟩).1

end HerdrContext.Worker
