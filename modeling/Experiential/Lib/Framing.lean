import Mathlib.Data.List.Infix

/-! # Frames that end with a delimiter

A stream arrives in pieces, and a delimiter ends each frame of it. `cutFrames` cuts a text at every delimiter, from
the left and without overlap, and gives the text behind the last one. A reader that keeps that rest and puts the
next piece behind it finds the frames of the whole text (`cutFrames_append`), however the text was cut. -/

namespace Experiential

variable {α : Type}

/-- Put an element in front of the first frame. -/
def pushFront (a : α) : List (List α) × List α → List (List α) × List α
  | ([], rest) => ([], a :: rest)
  | (f :: fs, rest) => ((a :: f) :: fs, rest)

/-- The text of frames. -/
def joinFrames (d : List α) (fs : List (List α)) : List α := (fs.map (· ++ d)).flatten

variable {d l : List α} {k : Nat}

@[simp] theorem joinFrames_cons (f : List α) (fs : List (List α)) :
    joinFrames d (f :: fs) = f ++ (d ++ joinFrames d fs) := by
  simp [joinFrames]

theorem pushFront_text (a : α) (p : List (List α) × List α) :
    joinFrames d (pushFront a p).1 ++ (pushFront a p).2 = a :: (joinFrames d p.1 ++ p.2) := by
  obtain ⟨_ | ⟨f, fs⟩, rest⟩ := p
  · rfl
  · simp [pushFront]

variable [DecidableEq α]

/-- The frames behind `skip` elements, and the rest. -/
def cutFramesFrom (d : List α) : Nat → List α → List (List α) × List α
  | _, [] => ([], [])
  | skip + 1, _ :: l => cutFramesFrom d skip l
  | 0, a :: l =>
      if d <+: a :: l then ([] :: (cutFramesFrom d (d.length - 1) l).1, (cutFramesFrom d (d.length - 1) l).2)
      else pushFront a (cutFramesFrom d 0 l)

/-- The frames of a text, and the text behind the last delimiter. -/
def cutFrames (d l : List α) : List (List α) × List α := cutFramesFrom d 0 l

/-! ### Nothing is lost -/

theorem cutFramesFrom_text (hd : d ≠ []) (hk : k ≤ l.length) :
    joinFrames d (cutFramesFrom d k l).1 ++ (cutFramesFrom d k l).2 = l.drop k := by
  induction l generalizing k with
  | nil =>
      have hk : k = 0 := by simpa using hk
      rw [hk]
      rfl
  | cons a l ih =>
      cases k with
      | succ k =>
          have hk : k ≤ l.length := by simpa using hk
          exact ih hk
      | zero =>
          unfold cutFramesFrom
          split_ifs with hpre
          · obtain ⟨t, ht⟩ := hpre
            have hlen : d.length + t.length = l.length + 1 := by
              have := congrArg List.length ht
              simpa using this
            have hpos : 0 < d.length := List.length_pos_of_ne_nil hd
            have hdrop : l.drop (d.length - 1) = t := by
              have hcons := congrArg (List.drop d.length) ht
              rw [List.drop_left, show d.length = (d.length - 1) + 1 by omega, List.drop_succ_cons] at hcons
              exact hcons.symm
            rw [joinFrames_cons, List.nil_append, List.append_assoc, ih (by omega), hdrop, List.drop_zero]
            exact ht
          · rw [pushFront_text, ih (Nat.zero_le _)]
            rfl

theorem cutFrames_text (hd : d ≠ []) (l : List α) : joinFrames d (cutFrames d l).1 ++ (cutFrames d l).2 = l :=
  cutFramesFrom_text hd (Nat.zero_le _)

/-! ### Reading in pieces -/

theorem cutFramesFrom_length (hne : (cutFramesFrom d k l).1 ≠ []) : d.length ≤ l.length := by
  induction l generalizing k with
  | nil => exact absurd rfl hne
  | cons a l ih =>
      cases k with
      | succ k => exact Nat.le_succ_of_le (ih hne)
      | zero =>
          unfold cutFramesFrom at hne
          split_ifs at hne with hpre
          · exact hpre.length_le
          · refine Nat.le_succ_of_le (ih (k := 0) fun hnil => hne ?_)
            unfold pushFront
            split
            · rfl
            · next f fs rest hfs =>
              rw [hfs] at hnil
              cases hnil

theorem cutFramesFrom_append (hd : d ≠ []) (m : List α) (hk : k ≤ l.length) :
    cutFramesFrom d k (l ++ m) = ((cutFramesFrom d k l).1 ++ (cutFrames d ((cutFramesFrom d k l).2 ++ m)).1,
      (cutFrames d ((cutFramesFrom d k l).2 ++ m)).2) := by
  induction l generalizing k with
  | nil =>
      have hk : k = 0 := by simpa using hk
      rw [hk]
      rfl
  | cons a l ih =>
      cases k with
      | succ k =>
          have hk : k ≤ l.length := by simpa using hk
          exact ih hk
      | zero =>
          by_cases hpre : d <+: a :: l
          · have hlong : d <+: a :: (l ++ m) := hpre.trans (List.prefix_append (a :: l) m)
            have hle : d.length - 1 ≤ l.length := by
              have := hpre.length_le
              rw [List.length_cons] at this
              omega
            have hstep : cutFramesFrom d 0 (a :: l) =
                ([] :: (cutFramesFrom d (d.length - 1) l).1, (cutFramesFrom d (d.length - 1) l).2) := if_pos hpre
            have hstep' : cutFramesFrom d 0 (a :: (l ++ m)) =
                ([] :: (cutFramesFrom d (d.length - 1) (l ++ m)).1, (cutFramesFrom d (d.length - 1) (l ++ m)).2) :=
              if_pos hlong
            rw [List.cons_append, hstep', hstep, ih hle]
            rfl
          · have hstep : cutFramesFrom d 0 (a :: l) = pushFront a (cutFramesFrom d 0 l) := if_neg hpre
            have ih := ih (k := 0) (Nat.zero_le _)
            cases hfs : cutFramesFrom d 0 l with
            | mk fs rest =>
              rw [hfs] at ih hstep
              cases fs with
              | nil =>
                  -- No delimiter so far: the rest is the whole text.
                  have htext : rest = l := by
                    have := cutFramesFrom_text (l := l) hd (Nat.zero_le _)
                    rw [hfs] at this
                    exact this
                  rw [hstep]
                  show cutFramesFrom d 0 (a :: (l ++ m)) = _
                  rw [← htext]
                  rfl
              | cons f fs =>
                  -- A delimiter is in the text, so that a longer one cannot start here.
                  have hlong : ¬ d <+: a :: (l ++ m) := by
                    intro hlong
                    have hle : d.length ≤ l.length := cutFramesFrom_length (k := 0) (by rw [hfs]; simp)
                    refine hpre (List.prefix_of_prefix_length_le hlong (List.prefix_append (a :: l) m) ?_)
                    rw [List.length_cons]
                    omega
                  have hstep' : cutFramesFrom d 0 (a :: (l ++ m)) = pushFront a (cutFramesFrom d 0 (l ++ m)) := if_neg hlong
                  rw [List.cons_append, hstep', hstep, ih]
                  rfl

/-- **A text in two pieces**: the frames of the first, and those of what it left with the second behind it. -/
theorem cutFrames_append (hd : d ≠ []) (l m : List α) :
    cutFrames d (l ++ m) = ((cutFrames d l).1 ++ (cutFrames d ((cutFrames d l).2 ++ m)).1, (cutFrames d ((cutFrames d l).2 ++ m)).2) :=
  cutFramesFrom_append hd m (Nat.zero_le _)

/-! ### The frames of a text -/

/-- `fs` are what the delimiter ends, each where it first occurs, and `rest` is what no delimiter ends. -/
structure Frames (d s : List α) (fs : List (List α)) (rest : List α) : Prop where
  text : joinFrames d fs ++ rest = s
  frames : ∀ f ∈ fs, ¬ d <:+: (f ++ d).dropLast
  rest : ¬ d <:+: rest

omit [DecidableEq α] in
theorem dropLast_cons_append (a : α) (f : List α) (hd : d ≠ []) : (a :: f ++ d).dropLast = a :: (f ++ d).dropLast := by
  rw [List.cons_append, List.dropLast_cons_of_ne_nil (List.append_ne_nil_of_right_ne_nil f hd)]

theorem cutFrames_of_not_infix (h : ¬ d <:+: l) : cutFrames d l = ([], l) := by
  induction l with
  | nil => rfl
  | cons a l ih =>
      have hpre : ¬ d <+: a :: l := fun hpre => h hpre.isInfix
      have hl : ¬ d <:+: l := fun hl => h (hl.trans (List.suffix_cons a l).isInfix)
      have hrest : cutFramesFrom d 0 l = ([], l) := ih hl
      rw [cutFrames, cutFramesFrom, if_neg hpre, hrest]
      rfl

omit [DecidableEq α] in
theorem skip_all [DecidableEq α] (d l : List α) : cutFramesFrom d l.length l = ([], []) := by
  induction l with
  | nil => rfl
  | cons a l ih => exact ih

/-- Where the delimiter first occurs at the end, the text is one frame. -/
theorem cutFrames_frame (hd : d ≠ []) {f : List α} (h : ¬ d <:+: (f ++ d).dropLast) : cutFrames d (f ++ d) = ([f], []) := by
  induction f with
  | nil =>
      obtain ⟨a, t, rfl⟩ := List.exists_cons_of_ne_nil hd
      have hskip : cutFramesFrom (a :: t) ((a :: t).length - 1) t = ([], []) := skip_all _ t
      rw [List.nil_append, cutFrames, cutFramesFrom, if_pos List.prefix_rfl, hskip]
  | cons a f ih =>
      rw [dropLast_cons_append a f hd] at h
      have hpre : ¬ d <+: a :: (f ++ d) := by
        intro hpre
        refine h (List.prefix_of_prefix_length_le hpre (List.cons_prefix_cons.mpr ⟨rfl, List.dropLast_prefix _⟩) ?_).isInfix
        have hpos : 0 < d.length := List.length_pos_of_ne_nil hd
        rw [List.length_cons, List.length_dropLast, List.length_append]
        omega
      have hrest : cutFramesFrom d 0 (f ++ d) = ([f], []) :=
        ih fun hinf => h (hinf.trans (List.suffix_cons a _).isInfix)
      rw [List.cons_append, cutFrames, cutFramesFrom, if_neg hpre, hrest]
      rfl

theorem Frames.cutFrames_eq (hd : d ≠ []) {s : List α} {fs : List (List α)} {rest : List α} (h : Frames d s fs rest) :
    cutFrames d s = (fs, rest) := by
  obtain ⟨rfl, hfs, hrest⟩ := h
  induction fs with
  | nil => exact cutFrames_of_not_infix hrest
  | cons f fs ih =>
      obtain ⟨hf, hfs⟩ := List.forall_mem_cons.mp hfs
      rw [joinFrames_cons, List.append_assoc, List.append_assoc, ← List.append_assoc f, cutFrames_append hd,
        cutFrames_frame hd hf, List.nil_append, ih hfs]
      rfl

/-- A frame ends where a delimiter first occurs, and none occurs in the rest. -/
theorem first_cutFramesFrom (hd : d ≠ []) (hk : k ≤ l.length) :
    (∀ f ∈ (cutFramesFrom d k l).1, ¬ d <:+: (f ++ d).dropLast) ∧ ¬ d <:+: (cutFramesFrom d k l).2 := by
  induction l generalizing k with
  | nil => exact ⟨nofun, fun h => hd (List.infix_nil.mp h)⟩
  | cons a l ih =>
      cases k with
      | succ k => exact ih (Nat.le_of_succ_le_succ hk)
      | zero =>
          unfold cutFramesFrom
          split_ifs with hpre
          · have hle : d.length - 1 ≤ l.length := by
              have hlen := hpre.length_le
              rw [List.length_cons] at hlen
              omega
            obtain ⟨hfs, hrest⟩ := ih hle
            refine ⟨List.forall_mem_cons.mpr ⟨fun hinf => ?_, hfs⟩, hrest⟩
            have hlen := hinf.length_le
            have hpos : 0 < d.length := List.length_pos_of_ne_nil hd
            rw [List.nil_append, List.length_dropLast] at hlen
            omega
          · obtain ⟨hfs, hrest⟩ := ih (Nat.zero_le _)
            have htext := cutFramesFrom_text (l := l) hd (Nat.zero_le _)
            -- A delimiter that starts at the new element would start the text.
            have hnew : ∀ t, t <+: l → d <:+: a :: t → d <:+: t := by
              intro t ht hinf
              rcases List.infix_cons_iff.mp hinf with hstart | hinf
              · exact (hpre (hstart.trans (List.cons_prefix_cons.mpr ⟨rfl, ht⟩))).elim
              · exact hinf
            cases hcut : cutFramesFrom d 0 l with
            | mk fs rest =>
              rw [hcut] at hfs hrest htext
              cases fs with
              | nil =>
                  refine ⟨nofun, fun hinf => hrest (hnew rest ?_ hinf)⟩
                  exact ⟨[], by rw [List.append_nil]; exact htext⟩
              | cons f fs =>
                  obtain ⟨hf, hfs⟩ := List.forall_mem_cons.mp hfs
                  refine ⟨List.forall_mem_cons.mpr ⟨fun hinf => hf ?_, hfs⟩, hrest⟩
                  rw [dropLast_cons_append a f hd] at hinf
                  refine hnew _ ((List.dropLast_prefix _).trans ⟨joinFrames d fs ++ rest, ?_⟩) hinf
                  rw [joinFrames_cons, List.append_assoc, List.append_assoc] at htext
                  rw [List.append_assoc]
                  exact htext

/-- **The frames of a text** are what `cutFrames` gives. -/
theorem frames_iff (hd : d ≠ []) {s : List α} {fs : List (List α)} {rest : List α} :
    Frames d s fs rest ↔ cutFrames d s = (fs, rest) := by
  refine ⟨fun h => h.cutFrames_eq hd, fun h => ?_⟩
  obtain ⟨hfs, hrest⟩ := first_cutFramesFrom (l := s) hd (Nat.zero_le _)
  have hframes : Frames d s (cutFrames d s).1 (cutFrames d s).2 := ⟨cutFrames_text hd s, hfs, hrest⟩
  rw [h] at hframes
  exact hframes

end Experiential
