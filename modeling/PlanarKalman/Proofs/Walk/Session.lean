import Mathlib.Data.List.Forall2
import PlanarKalman.Proofs.Walk.Path
import PlanarKalman.Random.Normal
import PlanarKalman.Walk.Session

/-!
# A session reads a list

A walk answers as if all its states had been written down at the beginning. A listing
is that list, and a cursor is no more than a place in it: the number of states it has
given out. Whatever a session is asked, in any order and through any number of
cursors, a listing is asked the same and gives the same answers
(`session_reads_listing`).

The relation that every request keeps is `Session.Reads`: each cursor is the one that
has given out as many states as its place says (`Walk.cursorAt`).
-/

namespace PlanarKalman

open NormalSource

variable {ρ α : Type}

namespace Walk

/-! ## Listings -/

/-- A list of states, and places up to which it has been read. -/
structure Listing (ρ α : Type) where
  entries : List (State α)
  source : ρ
  places : List Nat

namespace Listing

/-- The answer at one place, which may move on. -/
def atPlace (l : Listing ρ α) (i : Nat) (answer : Nat → Nat × Answer ρ α) :
    Listing ρ α × Answer ρ α :=
  match l.places[i]? with
  | none => (l, .noSuchCursor)
  | some k => ({ l with places := l.places.set i (answer k).1 }, (answer k).2)

/-- Marks a place for a second time. -/
def mark (l : Listing ρ α) (i : Nat) : Listing ρ α × Answer ρ α :=
  match l.places[i]? with
  | none => (l, .noSuchCursor)
  | some k => ({ l with places := l.places ++ [k] }, .opened)

def ask (l : Listing ρ α) : Request → Listing ρ α × Answer ρ α
  | .start => ({ l with places := l.places ++ [0] }, .opened)
  | .copy i => l.mark i
  | .next i => l.atPlace i fun k =>
    if k < l.entries.length then (k + 1, .item l.entries[k]?) else (k, .item none)
  | .sizeHint i => l.atPlace i fun k =>
    (k, .sizeHint (l.entries.length - k, some (l.entries.length - k)))
  | .drain i => l.atPlace i fun k => (l.entries.length, .states (l.entries.drop k))
  | .drainCopy i => l.atPlace i fun k => (k, .states (l.entries.drop k))
  | .length => (l, .length l.entries.length)
  | .states => (l, .states l.entries)
  | .positions => (l, .positions (l.entries.map State.position))
  | .source => (l, .source l.source)

def after (l : Listing ρ α) (requests : List Request) : Listing ρ α :=
  requests.foldl (fun l r => (l.ask r).1) l

def answers (l : Listing ρ α) : List Request → List (Answer ρ α)
  | [] => []
  | r :: rest => (l.ask r).2 :: (l.ask r).1.answers rest

end Listing

variable [Scalar α] [NormalSource ρ α]

/-! ## One request -/

/-- Every cursor of the session is as far as the place with its number. -/
structure Session.Reads (s : Session ρ α) (l : Listing ρ α) : Prop where
  entries_eq : l.entries = s.walk.path
  source_eq : l.source = s.walk.source
  cursors_eq : s.cursors = l.places.map s.walk.cursorAt
  places_le : ∀ k ∈ l.places, k ≤ s.walk.length

namespace Session.Reads

variable {s : Session ρ α} {l : Listing ρ α}

theorem getElem?_cursors (h : s.Reads l) (i : Nat) :
    s.cursors[i]? = l.places[i]?.map s.walk.cursorAt := by
  rw [h.cursors_eq, List.getElem?_map]

theorem length_entries (h : s.Reads l) : l.entries.length = s.walk.length := by
  rw [h.entries_eq, length_path]

/-- A cursor more, and a place more. -/
theorem append (h : s.Reads l) {k : Nat} (hk : k ≤ s.walk.length) :
    Session.Reads { s with cursors := s.cursors ++ [s.walk.cursorAt k] }
      { l with places := l.places ++ [k] } where
  entries_eq := h.entries_eq
  source_eq := h.source_eq
  cursors_eq := by simp [h.cursors_eq]
  places_le := by
    rw [List.forall_mem_append, List.forall_mem_singleton]
    exact ⟨h.places_le, hk⟩

/-- One cursor moves, and so does its place. -/
theorem set (h : s.Reads l) (i : Nat) {k : Nat} (hk : k ≤ s.walk.length) :
    Session.Reads { s with cursors := s.cursors.set i (s.walk.cursorAt k) }
      { l with places := l.places.set i k } where
  entries_eq := h.entries_eq
  source_eq := h.source_eq
  cursors_eq := by simp only [h.cursors_eq, List.map_set]
  places_le := by
    intro j hj
    rcases List.mem_or_eq_of_mem_set hj with hold | rfl
    · exact h.places_le j hold
    · exact hk

/-- It is enough to look at the cursor that is asked: the others keep their places. -/
theorem atCursor (h : s.Reads l) (i : Nat) {answer : Cursor ρ α → Cursor ρ α × Answer ρ α}
    {answer' : Nat → Nat × Answer ρ α}
    (hanswer : ∀ k ≤ s.walk.length,
      answer (s.walk.cursorAt k) = (s.walk.cursorAt (answer' k).1, (answer' k).2) ∧
      (answer' k).1 ≤ s.walk.length) :
    (s.atCursor i answer).2 = (l.atPlace i answer').2 ∧
      (s.atCursor i answer).1.Reads (l.atPlace i answer').1 := by
  simp only [Session.atCursor, Listing.atPlace, h.getElem?_cursors]
  cases hplace : l.places[i]? with
  | none => exact ⟨rfl, h⟩
  | some k =>
      obtain ⟨heq, hmoved⟩ := hanswer k (h.places_le k (List.mem_of_getElem? hplace))
      rw [Option.map_some]
      simp only [heq, true_and]
      exact h.set i hmoved

theorem openCopy (h : s.Reads l) (i : Nat) :
    (s.openCopy i).2 = (l.mark i).2 ∧ (s.openCopy i).1.Reads (l.mark i).1 := by
  simp only [Session.openCopy, Listing.mark, h.getElem?_cursors]
  cases hplace : l.places[i]? with
  | none => exact ⟨rfl, h⟩
  | some k => exact ⟨rfl, h.append (h.places_le k (List.mem_of_getElem? hplace))⟩

theorem ask (h : s.Reads l) (r : Request) :
    (s.ask r).2 = (l.ask r).2 ∧ (s.ask r).1.Reads (l.ask r).1 := by
  cases r with
  | start => exact ⟨rfl, h.append (Nat.zero_le _)⟩
  | copy i => exact h.openCopy i
  | next i =>
      refine h.atCursor i fun k hk => ?_
      rw [h.length_entries]
      rcases Nat.lt_or_eq_of_le hk with hlt | rfl
      · rw [next?_cursorAt_of_lt _ hlt, if_pos hlt, h.entries_eq, path,
          WalkConfig.getElem?_path _ _ hlt]
        exact ⟨rfl, hlt⟩
      · rw [next?_cursorAt_length, if_neg (Nat.lt_irrefl _)]
        exact ⟨rfl, hk⟩
  | sizeHint i =>
      refine h.atCursor i fun k hk => ⟨?_, hk⟩
      simp only [Cursor.sizeHint, remaining_cursorAt, h.length_entries]
  | drain i =>
      refine h.atCursor i fun k hk => ?_
      rw [drain_cursorAt _ hk, h.length_entries, h.entries_eq]
      exact ⟨rfl, Nat.le_refl _⟩
  | drainCopy i =>
      refine h.atCursor i fun k hk => ⟨?_, hk⟩
      simp only [drain_cursorAt _ hk, h.entries_eq]
  | length => exact ⟨congrArg Answer.length h.length_entries.symm, h⟩
  | states => exact ⟨congrArg Answer.states (s.walk.states_eq_path.trans h.entries_eq.symm), h⟩
  | positions =>
      refine ⟨?_, h⟩
      simp only [Session.ask, Listing.ask, Walk.positions, states_eq_path, h.entries_eq]
  | source => exact ⟨congrArg Answer.source h.source_eq.symm, h⟩

/-! ## Sessions -/

theorem after (h : s.Reads l) (requests : List Request) :
    s.answers requests = l.answers requests ∧ (s.after requests).Reads (l.after requests) := by
  induction requests generalizing s l with
  | nil => exact ⟨rfl, h⟩
  | cons r rest ih =>
      obtain ⟨hanswer, hnext⟩ := h.ask r
      obtain ⟨hanswers, hafter⟩ := ih hnext
      exact ⟨congrArg₂ List.cons hanswer hanswers, hafter⟩

end Session.Reads

/-- A session is asked and its walk stays as it is, with the source that every reading
starts from. -/
theorem Session.walk_ask (s : Session ρ α) (r : Request) : (s.ask r).1.walk = s.walk := by
  have hcursor : ∀ i answer, (s.atCursor i answer).1.walk = s.walk := by
    intro i answer
    unfold atCursor
    split <;> rfl
  cases r with
  | next i => exact hcursor i _
  | sizeHint i => exact hcursor i _
  | drain i => exact hcursor i _
  | drainCopy i => exact hcursor i _
  | copy i =>
      simp only [ask, openCopy]
      split <;> rfl
  | start | length | states | positions | source => rfl

theorem Session.walk_after (s : Session ρ α) (requests : List Request) :
    (s.after requests).walk = s.walk := by
  induction requests generalizing s with
  | nil => rfl
  | cons r rest ih => exact (ih _).trans (s.walk_ask r)

omit [NormalSource ρ α] in
theorem create_eq_ok_iff {config : WalkConfig α} {source : ρ} {w : Walk ρ α} :
    create config source = .ok w ↔ config.validate = .ok () ∧ ⟨config, source⟩ = w := by
  unfold create
  cases config.validate with
  | error fault => simp
  | ok u => simp

/-- A walk is a list, fixed by its parameters and its source, and a longer walk only goes
on with it. Whatever is asked of the walk and of its cursors is answered from the list,
with a place for each cursor; a cursor has drawn two samples of its own source for each
state but the first that it has given out, and the source of the walk is never drawn
from. -/
theorem session_reads_listing {config : WalkConfig α} {source : ρ} {w : Walk ρ α}
    (hw : create config source = .ok w) :
    let path := config.path source
    let listing : Listing ρ α := ⟨path, source, []⟩
    path.length = config.steps ∧
    (∀ longer, config.steps ≤ longer →
      path <+: ({ config with steps := longer } : WalkConfig α).path source) ∧
    ∀ requests,
      w.session.answers requests = listing.answers requests ∧
      (w.session.after requests).walk.source = source ∧
      List.Forall₂ (fun c k => k ≤ config.steps ∧ c.source = advance α source (2 * (k - 1)))
        (w.session.after requests).cursors (listing.after requests).places := by
  intro path listing
  obtain ⟨-, rfl⟩ := create_eq_ok_iff.mp hw
  refine ⟨config.length_path source, fun _ => config.path_isPrefix source, fun requests => ?_⟩
  have hstart : Session.Reads (session ⟨config, source⟩) listing := ⟨rfl, rfl, rfl, nofun⟩
  obtain ⟨hanswers, hreads⟩ := hstart.after requests
  have hwalk : ((session ⟨config, source⟩).after requests).walk = ⟨config, source⟩ :=
    Session.walk_after _ requests
  have hcursors := hreads.cursors_eq
  have hplaces := hreads.places_le
  rw [hwalk] at hcursors hplaces
  refine ⟨hanswers, by rw [hwalk], ?_⟩
  rw [hcursors, List.forall₂_map_left_iff, List.forall₂_same]
  exact fun k hk => ⟨hplaces k hk, source_cursorAt _ k⟩

/-! ## A walk of three states

One cursor reads it to its end while another one stays behind the first state. -/

def briefConfig : WalkConfig Float := ⟨3, 1, 2⟩

/-- Four words that make a sample each, and one that is left. -/
def briefSource : Replay where
  words := [0x8000000000000001, 0xa000000000000002, 0x9000000000000003, 0xa000000000000002, 7]

def briefRequests : List Request :=
  [.start, .next 0, .copy 0, .drain 0, .next 0, .sizeHint 0, .sizeHint 1, .next 2, .source]

theorem session_reads_listing_of_brief :
    ∃ w, create briefConfig briefSource = .ok w ∧
      w.session.answers briefRequests
        = [.opened, .item (some .origin), .opened,
            .states ((briefConfig.path briefSource).drop 1), .item none,
            .sizeHint (0, some 0), .sizeHint (2, some 2), .noSuchCursor, .source briefSource] ∧
      (w.session.after briefRequests).cursors.map Cursor.source = [⟨[7]⟩, briefSource] := by
  have hw : create briefConfig briefSource = .ok ⟨briefConfig, briefSource⟩ := rfl
  obtain ⟨-, -, hsession⟩ := session_reads_listing hw
  obtain ⟨hanswers, -, hcursors⟩ := hsession briefRequests
  refine ⟨_, hw, hanswers, ?_⟩
  have hplaces : (Listing.after ⟨briefConfig.path briefSource, briefSource, []⟩
      briefRequests).places = [3, 1] := rfl
  rw [hplaces] at hcursors
  obtain ⟨first, others, ⟨-, hfirst⟩, hothers, hall⟩ := List.forall₂_cons_right_iff.mp hcursors
  obtain ⟨second, none, ⟨-, hsecond⟩, hnone, rfl⟩ := List.forall₂_cons_right_iff.mp hothers
  obtain rfl := List.forall₂_nil_right_iff.mp hnone
  have hleft : advance Float briefSource 4 = ⟨[7]⟩ := by decide +kernel
  rw [hall, List.map_cons, List.map_cons, hfirst, hsecond, hleft]
  rfl

end Walk

end PlanarKalman
