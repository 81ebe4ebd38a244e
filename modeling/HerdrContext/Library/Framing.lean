import Mathlib.Data.List.Infix
import Mathlib.Data.List.TakeWhile

/-! Rows with a separator behind each, or between them, and how they are told
apart again. -/
namespace HerdrContext.Library

variable {α : Type} {separator : α} {rows others : List (List α)} {last rest : List α}

/-- Rows, each with a separator behind it. -/
def frame (separator : α) (rows : List (List α)) : List α := rows.flatMap (· ++ [separator])

def Unseparated (separator : α) (rows : List (List α)) : Prop := ∀ row ∈ rows, separator ∉ row

@[simp] theorem frame_nil : frame separator [] = [] := rfl

@[simp] theorem frame_cons (row : List α) :
    frame separator (row :: rows) = row ++ separator :: frame separator rows := by
  simp [frame]

@[simp] theorem frame_append :
    frame separator (rows ++ others) = frame separator rows ++ frame separator others := by
  simp [frame]

theorem frame_concat : frame separator (rows ++ [last]) = frame separator rows ++ last ++ [separator] := by
  simp

@[simp] theorem unseparated_nil : Unseparated separator [] := by
  simp [Unseparated]

@[simp] theorem unseparated_cons {row : List α} :
    Unseparated separator (row :: rows) ↔ separator ∉ row ∧ Unseparated separator rows :=
  List.forall_mem_cons

@[simp] theorem unseparated_append :
    Unseparated separator (rows ++ others) ↔
      Unseparated separator rows ∧ Unseparated separator others :=
  List.forall_mem_append

variable [DecidableEq α]

theorem splitOn_of_notMem (h : separator ∉ last) : last.splitOn separator = [last] := by
  rw [List.splitOn_eq_splitOnP]
  apply List.splitOnP_eq_singleton
  intro a ha
  have hne : a ≠ separator := fun heq => h (heq ▸ ha)
  simpa using hne

theorem splitOn_frame_append (h : Unseparated separator rows) (rest : List α) :
    (frame separator rows ++ rest).splitOn separator = rows ++ rest.splitOn separator := by
  induction rows with
  | nil => rfl
  | cons row rows ih =>
    have ⟨hrow, hrows⟩ := unseparated_cons.mp h
    have hfirst : ∀ a ∈ row, (a == separator) = false := by
      intro a ha
      have hne : a ≠ separator := fun heq => hrow (heq ▸ ha)
      simpa using hne
    have hsplit := List.splitOnP_append_cons_of_forall_mem hfirst separator (by simp)
      (frame separator rows ++ rest)
    have hrest := ih hrows
    simp only [List.splitOn_eq_splitOnP] at hrest ⊢
    rw [frame_cons, List.append_assoc, List.cons_append, hsplit, hrest, List.cons_append]

theorem frame_splitOn (separator : α) (text : List α) :
    frame separator (text.splitOn separator) = text ++ [separator] ∧
      Unseparated separator (text.splitOn separator) := by
  induction text with
  | nil => simp
  | cons a text ih =>
    rw [List.splitOn_cons_eq_if_modifyHead]
    split
    next hsame =>
      rw [frame_cons, ih.1, eq_of_beq hsame]
      exact ⟨rfl, unseparated_cons.mpr ⟨List.not_mem_nil, ih.2⟩⟩
    next hother =>
      have hne : a ≠ separator := by simpa using hother
      cases hsplit : text.splitOn separator with
      | nil => exact absurd hsplit (List.splitOn_ne_nil _ _)
      | cons row rows =>
        rw [hsplit, frame_cons, unseparated_cons] at ih
        rw [List.modifyHead_cons, frame_cons, List.cons_append, ih.1, unseparated_cons]
        refine ⟨rfl, ?_, ih.2.2⟩
        simp [hne.symm, ih.2.1]

/-- A text that ends with the separator is one list of rows, which the split of
the rest finds. -/
theorem eq_frame_iff {text : List α} :
    text = frame separator rows ∧ Unseparated separator rows ∧ rows ≠ [] ↔
      text.getLast? = some separator ∧ text.dropLast.splitOn separator = rows := by
  constructor
  · intro ⟨htext, hrows, hne⟩
    have hlast := List.dropLast_concat_getLast hne
    rw [← hlast] at htext hrows
    have ⟨hinit, hrow⟩ := unseparated_append.mp hrows
    rw [frame_concat] at htext
    constructor
    · rw [htext, List.getLast?_concat]
    · rw [htext, List.dropLast_concat, splitOn_frame_append hinit,
        splitOn_of_notMem (unseparated_cons.mp hrow).1, hlast]
  · intro ⟨hlast, hsplit⟩
    have ⟨hframe, hrows⟩ := frame_splitOn separator text.dropLast
    rw [hsplit] at hframe hrows
    refine ⟨?_, hrows, ?_⟩
    · rw [hframe]
      exact (List.dropLast_append_getLast? separator hlast).symm
    · rw [← hsplit]
      exact List.splitOn_ne_nil _ _

/-- Rows at the start of a text are told apart from what follows. -/
theorem frame_prefix (hrows : Unseparated separator rows) (hothers : Unseparated separator others)
    (h : frame separator others <+: frame separator rows) : others <+: rows := by
  have ⟨rest, hrest⟩ := h
  have hsplit : others ++ rest.splitOn separator = rows ++ [[]] := by
    rw [← splitOn_frame_append hothers rest, hrest]
    have hwhole := splitOn_frame_append hrows []
    rwa [List.append_nil, List.splitOn_nil] at hwhole
  have hlength : others.length ≤ rows.length := by
    have hcount := congrArg List.length hsplit
    have hpositive := List.length_pos_iff.mpr (List.splitOn_ne_nil separator rest)
    simp only [List.length_append, List.length_singleton] at hcount
    omega
  exact List.prefix_of_prefix_length_le ⟨_, hsplit⟩ (List.prefix_append _ _) hlength

/-! ## Limited splits -/

/-- `splitn`: at most so many pieces, the last of which may hold separators. -/
def splitN (separator : α) : Nat → List α → List (List α)
  | 0, _ => []
  | 1, text => [text]
  | limit + 2, text =>
    if separator ∈ text then
      text.takeWhile (· ≠ separator) ::
        splitN separator (limit + 1) (text.dropWhile (· ≠ separator)).tail
    else [text]

theorem splitN_frame_append (hrows : Unseparated separator rows) (last : List α) :
    splitN separator (rows.length + 1) (frame separator rows ++ last) = rows ++ [last] := by
  induction rows with
  | nil => rfl
  | cons row rows ih =>
    have ⟨hrow, hrest⟩ := unseparated_cons.mp hrows
    have hkeep : ∀ a ∈ row, decide (a ≠ separator) = true := by
      intro a ha
      have hne : a ≠ separator := fun heq => hrow (heq ▸ ha)
      simpa using hne
    rw [List.length_cons, splitN, if_pos (by simp), frame_cons, List.append_assoc,
      List.cons_append, List.takeWhile_append_of_pos hkeep,
      List.dropWhile_append_of_pos hkeep, List.takeWhile_cons_of_neg (by simp),
      List.dropWhile_cons_of_neg (by simp), List.append_nil, List.tail_cons, ih hrest,
      List.cons_append]

theorem exists_splitN (separator : α) (limit : Nat) (text : List α) :
    ∃ rows last, splitN separator (limit + 1) text = rows ++ [last] ∧ rows.length ≤ limit ∧
      Unseparated separator rows ∧ text = frame separator rows ++ last := by
  induction limit generalizing text with
  | zero => exact ⟨[], text, rfl, Nat.le_refl 0, unseparated_nil, rfl⟩
  | succ limit ih =>
    by_cases hmem : separator ∈ text
    · have ⟨rows, last, hsplit, hlength, hrows, htext⟩ :=
        ih (text.dropWhile (· ≠ separator)).tail
      refine ⟨text.takeWhile (· ≠ separator) :: rows, last, ?_, ?_, ?_, ?_⟩
      · rw [splitN, if_pos hmem, hsplit, List.cons_append]
      · simpa using hlength
      · apply unseparated_cons.mpr
        refine ⟨fun hhead => ?_, hrows⟩
        simpa using List.mem_takeWhile_imp hhead
      · have hrest : text.dropWhile (· ≠ separator) =
            separator :: (text.dropWhile (· ≠ separator)).tail := by
          cases hdrop : text.dropWhile (· ≠ separator) with
          | nil =>
            have hnone := List.dropWhile_eq_nil_iff.mp hdrop separator hmem
            simp at hnone
          | cons first others =>
            have hfirst := List.head?_dropWhile_not (· ≠ separator) text
            rw [hdrop] at hfirst
            simp only [List.head?_cons] at hfirst
            rw [List.tail_cons, show first = separator by simpa using hfirst]
        rw [frame_cons, List.append_assoc, List.cons_append, ← htext, ← hrest,
          List.takeWhile_append_dropWhile]
    · exact ⟨[], text, by rw [splitN, if_neg hmem]; rfl, Nat.zero_le _, unseparated_nil, rfl⟩

/-- A limited split that finds as many pieces as it may. -/
theorem splitN_eq_iff {text : List α} :
    splitN separator (rows.length + 1) text = rows ++ last :: others ↔
      text = frame separator rows ++ last ∧ Unseparated separator rows ∧ others = [] := by
  constructor
  · intro h
    have ⟨init, final, hsplit, hlength, hinit, htext⟩ := exists_splitN separator rows.length text
    rw [hsplit] at h
    have hcount := congrArg List.length h
    simp only [List.length_append, List.length_cons, List.length_nil] at hcount
    have hnone : others = [] := List.length_eq_zero_iff.mp (by omega)
    rw [hnone] at h
    have ⟨hrows, hfinal⟩ := List.append_inj' h rfl
    rw [hrows, (List.cons.inj hfinal).1] at htext
    exact ⟨htext, hrows ▸ hinit, hnone⟩
  · intro ⟨htext, hrows, hnone⟩
    rw [htext, hnone]
    exact splitN_frame_append hrows last

end HerdrContext.Library
