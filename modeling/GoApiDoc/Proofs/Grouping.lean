/-
This file says how comments are grouped. A comment joins the open group if it stands on a line of
its own and starts no later than the line behind the group; any other comment closes the group, and
opens one of its own if it stands on a line of its own. The groups are runs of consecutive comments,
and grouping does not look past a gap, so comments on both sides of one are grouped apart.
-/

import GoApiDoc.Go.Comment
import Mathlib.Data.List.Chain

namespace GoApiDoc.Go

/-! ### One comment -/

/-- Whether the comment goes on with the group. -/
def Comment.joins (comment : Comment) (group : List Comment) : Bool :=
  comment.ownLine && group.getLast?.all fun previous => comment.first ≤ previous.last + 1

/-- The group that a comment opens, which is empty if it opens none. -/
def Comment.opened (comment : Comment) : List Comment :=
  if comment.ownLine then [comment] else []

/-- The group, if there is one. -/
def closed (group : List Comment) : List (List Comment) :=
  if group.isEmpty then [] else [group]

theorem groupsFrom_nil (group : List Comment) : groupsFrom group [] = closed group :=
  rfl

theorem groupsFrom_cons (group : List Comment) (comment : Comment) (rest : List Comment) :
    groupsFrom group (comment :: rest) =
      if comment.joins group then groupsFrom (group ++ [comment]) rest
      else closed group ++ groupsFrom comment.opened rest := by
  rw [groupsFrom]
  cases last : group.getLast? with
  | none =>
    simp only [Comment.joins, closed, Comment.opened, last, Option.all_none]
    split
    · rfl
    · split
      · rfl
      · rfl
  | some previous =>
    simp only [Comment.joins, closed, Comment.opened, last, Option.all_some]
    split
    · rfl
    · split
      · rfl
      · rfl

theorem mem_closed {group found : List Comment} (member : found ∈ closed group) :
    found = group ∧ found ≠ [] := by
  unfold closed at member
  split at member
  · simp at member
  · next full =>
    obtain rfl := List.mem_singleton.mp member
    exact ⟨rfl, fun none => full (none ▸ rfl)⟩

theorem groupsFrom_ne_nil {group comments found : List Comment}
    (member : found ∈ groupsFrom group comments) : found ≠ [] := by
  induction comments generalizing group with
  | nil => exact (mem_closed member).2
  | cons comment rest inductionHypothesis =>
    rw [groupsFrom_cons] at member
    split at member
    · exact inductionHypothesis member
    · obtain member | member := List.mem_append.mp member
      · exact (mem_closed member).2
      · exact inductionHypothesis member

theorem mem_opened {comment other : Comment} (member : other ∈ comment.opened) :
    other = comment ∧ comment.ownLine := by
  unfold Comment.opened at member
  split at member
  · next own => exact ⟨List.mem_singleton.mp member, own⟩
  · simp at member

/-! ### Runs -/

/-- Comments on lines of their own, none of which starts later than the line behind the one
before. -/
structure CommentRun (comments : List Comment) : Prop where
  own : ∀ comment ∈ comments, comment.ownLine
  near : comments.IsChain fun previous next => next.first ≤ previous.last + 1

theorem commentRun_nil : CommentRun [] :=
  ⟨nofun, .nil⟩

/-- A run that goes on behind a place has a comment next to it on either side. -/
theorem CommentRun.cut {run front rest : List Comment} (chain : CommentRun run)
    (starts : run <+: front ++ rest) (full : front ≠ []) :
    (∀ comment ∈ run, comment ∈ front) ∨
      ∃ previous ∈ run, previous ∈ front ∧
        ∃ next ∈ rest, next.ownLine ∧ next.first ≤ previous.last + 1 := by
  obtain ⟨more, whole⟩ := starts
  obtain ⟨others, rfl, -⟩ | ⟨inner, rfl, rfl⟩ := List.append_eq_append_iff.mp whole
  · exact Or.inl fun comment member => List.mem_append_left _ member
  · cases inner with
    | nil =>
      rw [List.append_nil]
      exact Or.inl fun comment member => member
    | cons next inner =>
      obtain ⟨previous, last⟩ :=
        Option.isSome_iff_exists.mp (List.getLast?_isSome.mpr full)
      have inFront := List.mem_of_getLast? last
      have own := chain.own next (List.mem_append_right _ List.mem_cons_self)
      have gap := (List.isChain_append.mp chain.near).2.2 previous last next rfl
      exact Or.inr ⟨previous, List.mem_append_left _ inFront, inFront, next,
        List.mem_append_left _ List.mem_cons_self, own, gap⟩

theorem commentRun_opened (comment : Comment) : CommentRun comment.opened := by
  unfold Comment.opened
  split
  · next own => exact ⟨fun other member => List.mem_singleton.mp member ▸ own, .singleton comment⟩
  · exact commentRun_nil

theorem CommentRun.joined {group : List Comment} {comment : Comment} (run : CommentRun group)
    (joins : comment.joins group) : CommentRun (group ++ [comment]) := by
  rw [Comment.joins, Bool.and_eq_true] at joins
  refine ⟨fun other member => ?_, ?_⟩
  · obtain before | last := List.mem_append.mp member
    · exact run.own other before
    · rw [List.mem_singleton.mp last]
      exact joins.1
  · refine List.isChain_append.mpr
      ⟨run.near, .singleton comment, fun previous last next first => ?_⟩
    obtain rfl := Option.some.inj first
    have near := joins.2
    rw [Option.mem_def.mp last, Option.all_some, decide_eq_true_eq] at near
    exact near

/-- A group is a run, and its comments are consecutive. -/
theorem run_of_mem_groupsFrom {group comments found : List Comment} (run : CommentRun group)
    (member : found ∈ groupsFrom group comments) :
    CommentRun found ∧ ∃ before after, group ++ comments = before ++ (found ++ after) := by
  induction comments generalizing group with
  | nil =>
    obtain ⟨rfl, -⟩ := mem_closed member
    exact ⟨run, [], [], by rw [List.nil_append]⟩
  | cons comment rest inductionHypothesis =>
    rw [groupsFrom_cons] at member
    split at member
    · next joins =>
      obtain ⟨runFound, before, after, split⟩ := inductionHypothesis (run.joined joins) member
      rw [List.append_assoc] at split
      exact ⟨runFound, before, after, split⟩
    · obtain member | member := List.mem_append.mp member
      · obtain ⟨rfl, -⟩ := mem_closed member
        exact ⟨run, [], comment :: rest, rfl⟩
      · obtain ⟨runFound, before, after, split⟩ :=
          inductionHypothesis (commentRun_opened comment) member
        refine ⟨runFound, ?_⟩
        unfold Comment.opened at split
        split at split
        · exact ⟨group ++ before, after, by rw [List.append_assoc, ← split]; rfl⟩
        · refine ⟨group ++ comment :: before, after, ?_⟩
          rw [List.nil_append] at split
          rw [List.append_assoc, List.cons_append, ← split]

/-! ### A gap -/

/-- A comment behind a gap closes the group, whichever it is. -/
theorem groupsFrom_behind {group rest : List Comment} {comment : Comment}
    (apart : comment.ownLine → ∀ previous ∈ group, previous.last + 1 < comment.first) :
    groupsFrom group (comment :: rest) = closed group ++ groupsFrom comment.opened rest := by
  rw [groupsFrom_cons]
  split
  · next joins =>
    rw [Comment.joins, Bool.and_eq_true] at joins
    cases last : group.getLast? with
    | none =>
      obtain rfl := List.getLast?_eq_none_iff.mp last
      rw [List.nil_append, Comment.opened, if_pos joins.1]
      rfl
    | some previous =>
      have near := joins.2
      rw [last, Option.all_some, decide_eq_true_eq] at near
      have gap := apart joins.1 previous (List.mem_of_getLast? last)
      omega
  · rfl

/-- Comments that start behind a gap are grouped apart from those before it. -/
theorem groupsFrom_append {group first second : List Comment}
    (apart : ∀ comment ∈ second, comment.ownLine → ∀ previous ∈ group ++ first,
      previous.last + 1 < comment.first) :
    groupsFrom group (first ++ second) = groupsFrom group first ++ groupsFrom [] second := by
  induction first generalizing group with
  | nil =>
    rw [List.nil_append, groupsFrom_nil]
    cases second with
    | nil => exact (List.append_nil _).symm
    | cons comment rest =>
      rw [List.append_nil] at apart
      rw [groupsFrom_behind (apart comment List.mem_cons_self),
        groupsFrom_behind (fun _ previous member => by simp at member)]
      rfl
  | cons comment rest inductionHypothesis =>
    rw [List.cons_append, groupsFrom_cons, groupsFrom_cons]
    split
    · refine inductionHypothesis ?_
      rw [List.append_assoc]
      exact apart
    · rw [List.append_assoc, inductionHypothesis]
      intro other member own previous before
      refine apart other member own previous (List.mem_append_right group ?_)
      obtain before | before := List.mem_append.mp before
      · exact List.mem_cons.mpr (Or.inl (mem_opened before).1)
      · exact List.mem_cons_of_mem comment before

end GoApiDoc.Go
