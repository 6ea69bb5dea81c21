import Mathlib.Data.Finset.Card
import Mathlib.Logic.Relation
import ZenthDht.Data.Page

/-!
# Following a growing collection

Items with a stamp and an expiry date are added to a collection.  A reader polls it with a *cursor*:
a poll reads the clock, counts the unexpired items with a stamp beyond the cursor, loads a page of
them, and moves the cursor if the page has as many items as were counted.  What is added at or below
the cursor is on no later page, and what is added between the count and the end of a poll may be
passed over by it.

`Timely` says which additions do no harm, and `Sound` is the invariant: everything at or below the
cursor has been returned or has expired, and a poll accounts for all the items there were when it
began.
-/

namespace ZenthDht

variable {α : Type}

/-- A page has all of the items if they fit. -/
theorem IsPage.mem_of_card [DecidableEq α] {key : α → Int} {items : Finset α} {limit : Nat}
    {page : List α} (h : IsPage key (· ∈ items) limit page) (hfit : items.card ≤ limit) {x : α}
    (hx : x ∈ items) : x ∈ page := by
  by_contra hnot
  obtain ⟨hfull, -⟩ := (h.rest x hx).resolve_left hnot
  have hsub : insert x page.toFinset ⊆ items := by
    intro y hy
    rcases Finset.mem_insert.mp hy with rfl | hy
    · exact hx
    · exact h.sound y (List.mem_toFinset.mp hy)
  have hcard := Finset.card_le_card hsub
  rw [Finset.card_insert_of_notMem (by simp [hnot]), List.toFinset_card_of_nodup h.nodup] at hcard
  omega

/-- A collection, and what its reader has of it. -/
structure Feed (α : Type) where
  items : Finset α
  clock : Int
  cursor : Int
  returned : Finset α

/-- How far a poll has come; `old` are the items there were when it began. -/
inductive Phase (α : Type)
  | idle
  | begun (limit : Nat) (old : Finset α)
  | timed (limit : Nat) (old : Finset α) (now : Int)
  | counted (limit : Nat) (old : Finset α) (now : Int) (found : Finset α)
  | loaded (old : Finset α) (now : Int) (total : Nat) (page : Finset α)
  | answered (old : Finset α) (now : Int) (remaining : Nat)

/-- A feed with the poll that reads it. -/
structure Polled (α : Type) extends Feed α where
  phase : Phase α

namespace Feed

section

variable (stamp expiry : α → Int) (s : Feed α)

/-- What a poll at the time `now` is about. -/
def due (now : Int) : Finset α := s.items.filter fun x ↦ s.cursor < stamp x ∧ now < expiry x

/-- The poll has read the clock, and what it will not look for is known or has expired. -/
structure Timed (old : Finset α) (now : Int) : Prop where
  now_le : now ≤ s.clock
  known : ∀ x ∈ old, stamp x ≤ s.cursor → expiry x ≤ now ∨ x ∈ s.returned

/-- The page to be loaded is one of counted items, or it has all items. -/
structure Counted (limit : Nat) (old : Finset α) (now : Int) (found : Finset α) : Prop
    extends s.Timed stamp expiry old now where
  old_found : ∀ x ∈ old, s.cursor < stamp x → now < expiry x → x ∈ found
  found_due : found ⊆ s.due stamp expiry now
  fits : (s.due stamp expiry now).card ≤ limit ∨ limit < found.card ∧
    ∀ x ∈ s.due stamp expiry now, x ∉ found → limit ≤ (found.filter fun y ↦ stamp y < stamp x).card

end

section

variable [DecidableEq α] (stamp expiry : α → Int) (s : Feed α)

/-- What was there when the poll began has been returned, or is counted among the remaining. -/
def Accounts (old : Finset α) (now : Int) (page : Finset α) (remaining : Nat) : Prop :=
  (old.filter fun x ↦ now < expiry x ∧ x ∉ s.returned ∪ page).card ≤ remaining

/-- The page has been loaded, and if it is complete it can be passed. -/
structure Loaded (old : Finset α) (now : Int) (total : Nat) (page : Finset α) : Prop where
  now_le : now ≤ s.clock
  accounts : s.Accounts expiry old now page (total - page.card)
  complete : total ≤ page.card → ∀ x ∈ s.items, x ∈ page ∨ stamp x ≤ s.cursor ∨ expiry x ≤ s.clock

/-- What holds at each point of a poll. -/
def SoundAt : Phase α → Prop
  | .idle => True
  | .begun _ old => old ⊆ s.items
  | .timed _ old now => old ⊆ s.items ∧ s.Timed stamp expiry old now
  | .counted limit old now found => s.Counted stamp expiry limit old now found
  | .loaded old now total page => s.Loaded stamp expiry old now total page
  | .answered old now remaining => s.Accounts expiry old now ∅ remaining

end

variable {stamp expiry : α → Int} {s : Feed α} {x : α} {old found : Finset α}
variable {limit : Nat} {now clock : Int}

theorem mem_due : x ∈ s.due stamp expiry now ↔
    x ∈ s.items ∧ s.cursor < stamp x ∧ now < expiry x := Finset.mem_filter

theorem Timed.tick (h : s.Timed stamp expiry old now) (hclock : s.clock ≤ clock) :
    Timed stamp expiry { s with clock } old now := ⟨h.now_le.trans hclock, h.known⟩

theorem SoundAt.tick [DecidableEq α] {phase : Phase α} (h : s.SoundAt stamp expiry phase)
    (hclock : s.clock ≤ clock) : SoundAt stamp expiry { s with clock } phase := by
  cases phase with
  | idle => trivial
  | begun limit old => exact h
  | timed limit old now => exact ⟨h.1, h.2.tick hclock⟩
  | counted limit old now found =>
      exact ⟨h.toTimed.tick hclock, h.old_found, h.found_due, h.fits⟩
  | loaded old now total page =>
      refine ⟨h.now_le.trans hclock, h.accounts, fun hle x hx ↦ ?_⟩
      exact (h.complete hle x hx).imp_right fun h ↦ h.imp_right hclock.trans'
  | answered old now remaining => exact h

end Feed

namespace Polled

variable [DecidableEq α] (stamp expiry : α → Int)

/-- The item can be added without being lost, and without hiding another one.  If the items have
been counted, it must find room on the page, or come after a full page while others remain. -/
structure Timely (s : Polled α) (x : α) : Prop where
  positive : 0 < stamp x
  beyond : s.cursor < stamp x ∨ expiry x ≤ s.clock
  counted : ∀ limit old now found, s.phase = .counted limit old now found → s.cursor < stamp x →
    now < expiry x → (s.due stamp expiry now).card < limit ∨ limit < found.card ∧
      limit ≤ ((s.due stamp expiry now).filter fun y ↦ stamp y < stamp x).card
  loaded : ∀ old now total page, s.phase = .loaded old now total page → total ≤ page.card →
    expiry x ≤ s.clock

/-- Time passes, an item is added, or a poll takes its next step. -/
inductive Step : Polled α → Polled α → Prop
  | tick (s : Polled α) {clock : Int} (h : s.clock ≤ clock) : Step s { s with clock }
  | add (s : Polled α) {x : α} (h : s.Timely stamp expiry x) :
      Step s { s with items := insert x s.items }
  | start (s : Polled α) (limit : Nat) : Step s { s with phase := .begun limit s.items }
  | read (s : Polled α) {limit : Nat} {old : Finset α} (h : s.phase = .begun limit old) :
      Step s { s with phase := .timed limit old s.clock }
  | count (s : Polled α) {limit : Nat} {old : Finset α} {now : Int}
      (h : s.phase = .timed limit old now) :
      Step s { s with phase := .counted limit old now (s.due stamp expiry now) }
  | load (s : Polled α) {limit : Nat} {old found : Finset α} {now : Int} {page : List α}
      (h : s.phase = .counted limit old now found)
      (hpage : IsPage stamp (· ∈ s.due stamp expiry now) limit page) :
      Step s { s with phase := .loaded old now found.card page.toFinset }
  | answer (s : Polled α) {old page : Finset α} {now : Int} {total : Nat}
      (h : s.phase = .loaded old now total page) (stamped : Int) :
      Step s { s with
        cursor := if total ≤ page.card then stamped else s.cursor
        returned := s.returned ∪ page
        phase := .answered old now (total - page.card) }
  | finish (s : Polled α) : Step s { s with phase := .idle }

/-- The invariant. -/
structure Sound (s : Polled α) : Prop where
  positive : ∀ x ∈ s.items, 0 < stamp x
  /-- What is at or below the cursor has been returned or has expired. -/
  settled : ∀ x ∈ s.items, stamp x ≤ s.cursor → expiry x ≤ s.clock ∨ x ∈ s.returned
  phase : s.toFeed.SoundAt stamp expiry s.phase

variable {stamp expiry} {s s' : Polled α} {x : α}

/-! ## What each step preserves -/

theorem Sound.tick {clock : Int} (h : s.Sound stamp expiry) (hclock : s.clock ≤ clock) :
    Sound stamp expiry { s with clock } :=
  ⟨h.positive, fun x hx hle ↦ (h.settled x hx hle).imp_left hclock.trans', h.phase.tick hclock⟩

/-- What a new item adds to what a poll is about. -/
theorem due_insert {now : Int} {y : α}
    (hy : y ∈ Feed.due stamp expiry { s.toFeed with items := insert x s.items } now) :
    y ∈ s.due stamp expiry now ∨ y = x ∧ s.cursor < stamp x ∧ now < expiry x := by
  obtain ⟨hy, hdue⟩ := Feed.mem_due.mp hy
  rcases Finset.mem_insert.mp hy with rfl | hy
  · exact .inr ⟨rfl, hdue⟩
  · exact .inl (Feed.mem_due.mpr ⟨hy, hdue⟩)

theorem Timely.fits (hx : s.Timely stamp expiry x) {limit : Nat} {old found : Finset α} {now : Int}
    (hphase : s.phase = .counted limit old now found)
    (h : s.toFeed.Counted stamp expiry limit old now found) :
    (Feed.due stamp expiry { s.toFeed with items := insert x s.items } now).card ≤ limit ∨
      limit < found.card ∧
        ∀ y ∈ Feed.due stamp expiry { s.toFeed with items := insert x s.items } now, y ∉ found →
          limit ≤ (found.filter fun z ↦ stamp z < stamp y).card := by
  by_cases hdue : s.cursor < stamp x ∧ now < expiry x
  · rcases hx.counted _ _ _ _ hphase hdue.1 hdue.2 with hroom | ⟨hmore, hbehind⟩
    · refine .inl ((Finset.card_le_card fun y hy ↦ ?_).trans
        ((Finset.card_insert_le x (s.due stamp expiry now)).trans hroom))
      exact Finset.mem_insert.mpr ((due_insert hy).symm.imp_left And.left)
    · have hle : limit < (s.due stamp expiry now).card :=
        hmore.trans_le (Finset.card_le_card h.found_due)
      obtain ⟨-, hothers⟩ := h.fits.resolve_left (Nat.not_le.mpr hle)
      refine .inr ⟨hmore, fun y hy hnew ↦ ?_⟩
      rcases due_insert hy with hy | ⟨rfl, -⟩
      · exact hothers y hy hnew
      -- an item before the new one that is not counted either comes after a full page itself
      by_cases hall : ∀ z ∈ s.due stamp expiry now, stamp z < stamp y → z ∈ found
      · refine hbehind.trans (Finset.card_le_card fun z hz ↦ ?_)
        obtain ⟨hz, hlt⟩ := Finset.mem_filter.mp hz
        exact Finset.mem_filter.mpr ⟨hall z hz hlt, hlt⟩
      · push Not at hall
        obtain ⟨z, hz, hlt, hzfound⟩ := hall
        refine (hothers z hz hzfound).trans (Finset.card_le_card fun w hw ↦ ?_)
        obtain ⟨hw, hwz⟩ := Finset.mem_filter.mp hw
        exact Finset.mem_filter.mpr ⟨hw, hwz.trans hlt⟩
  · have hsame : Feed.due stamp expiry { s.toFeed with items := insert x s.items } now =
        s.due stamp expiry now := by
      ext y
      constructor
      · exact fun hy ↦ (due_insert hy).resolve_right fun h ↦ hdue h.2
      · intro hy
        obtain ⟨hy, hafter⟩ := Feed.mem_due.mp hy
        exact Feed.mem_due.mpr ⟨Finset.mem_insert_of_mem hy, hafter⟩
    rw [hsame]
    exact h.fits

theorem Sound.add (h : s.Sound stamp expiry) (hx : s.Timely stamp expiry x) :
    Sound stamp expiry { s with items := insert x s.items } := by
  refine ⟨fun y hy ↦ ?_, fun y hy hle ↦ ?_, ?_⟩
  · rcases Finset.mem_insert.mp hy with rfl | hy
    · exact hx.positive
    · exact h.positive y hy
  · rcases Finset.mem_insert.mp hy with rfl | hy
    · exact .inl (hx.beyond.resolve_left (Int.not_lt.mpr hle))
    · exact h.settled y hy hle
  have hsound := h.phase
  have hsub : s.items ⊆ insert x s.items := Finset.subset_insert x s.items
  show Feed.SoundAt stamp expiry { s.toFeed with items := insert x s.items } s.phase
  cases hphase : s.phase with
  | idle => trivial
  | begun limit old =>
      rw [hphase] at hsound
      exact hsound.trans hsub
  | timed limit old now =>
      rw [hphase] at hsound
      exact ⟨hsound.1.trans hsub, hsound.2.now_le, hsound.2.known⟩
  | counted limit old now found =>
      rw [hphase] at hsound
      refine ⟨⟨hsound.now_le, hsound.known⟩, hsound.old_found, fun y hy ↦ ?_, hx.fits hphase hsound⟩
      obtain ⟨hy, hafter⟩ := Feed.mem_due.mp (hsound.found_due hy)
      exact Feed.mem_due.mpr ⟨hsub hy, hafter⟩
  | loaded old now total page =>
      rw [hphase] at hsound
      refine ⟨hsound.now_le, hsound.accounts, fun hle y hy ↦ ?_⟩
      rcases Finset.mem_insert.mp hy with rfl | hy
      · exact .inr (.inr (hx.loaded _ _ _ _ hphase hle))
      · exact hsound.complete hle y hy
  | answered old now remaining =>
      rw [hphase] at hsound
      exact hsound

theorem Sound.start (h : s.Sound stamp expiry) (limit : Nat) :
    Sound stamp expiry { s with phase := .begun limit s.items } :=
  ⟨h.positive, h.settled, Finset.Subset.refl s.items⟩

theorem Sound.read (h : s.Sound stamp expiry) {limit : Nat} {old : Finset α}
    (hphase : s.phase = .begun limit old) :
    Sound stamp expiry { s with phase := .timed limit old s.clock } := by
  have hold := h.phase
  rw [hphase] at hold
  exact ⟨h.positive, h.settled, hold, le_rfl, fun x hx hle ↦ h.settled x (hold hx) hle⟩

theorem Sound.count (h : s.Sound stamp expiry) {limit : Nat} {old : Finset α} {now : Int}
    (hphase : s.phase = .timed limit old now) :
    Sound stamp expiry { s with phase := .counted limit old now (s.due stamp expiry now) } := by
  have htimed := h.phase
  rw [hphase] at htimed
  refine ⟨h.positive, h.settled, htimed.2, fun x hx hcursor hnow ↦ ?_, Finset.Subset.refl _, ?_⟩
  · exact Feed.mem_due.mpr ⟨htimed.1 hx, hcursor, hnow⟩
  · exact (Nat.lt_or_ge limit _).symm.imp_right fun hlt ↦ ⟨hlt, fun x hx hnew ↦ absurd hx hnew⟩

/-- If more have been counted than fit, the page has only counted items. -/
theorem page_found {limit : Nat} {old found : Finset α} {now : Int} {page : List α}
    (h : s.toFeed.Counted stamp expiry limit old now found)
    (hpage : IsPage stamp (· ∈ s.due stamp expiry now) limit page) (hmore : limit < found.card)
    (hx : x ∈ page) : x ∈ found := by
  by_contra hnew
  have hle : limit < (s.due stamp expiry now).card :=
    hmore.trans_le (Finset.card_le_card h.found_due)
  obtain ⟨-, hothers⟩ := h.fits.resolve_left (Nat.not_le.mpr hle)
  have hbehind := hothers x (hpage.sound x hx) hnew
  -- the items before it are all on the page, and fill it
  have hsub : insert x (found.filter fun y ↦ stamp y < stamp x) ⊆ page.toFinset := by
    intro y hy
    rcases Finset.mem_insert.mp hy with rfl | hy
    · exact List.mem_toFinset.mpr hx
    obtain ⟨hy, hlt⟩ := Finset.mem_filter.mp hy
    refine List.mem_toFinset.mpr ((hpage.rest y (h.found_due hy)).resolve_right fun hfull ↦ ?_)
    exact absurd (hfull.2 x hx) (Int.not_le.mpr hlt)
  have hcard := Finset.card_le_card hsub
  rw [Finset.card_insert_of_notMem (by simp [hnew]), List.toFinset_card_of_nodup hpage.nodup] at hcard
  have hlength := hpage.length_le
  omega

theorem Sound.load (h : s.Sound stamp expiry) {limit : Nat} {old found : Finset α} {now : Int}
    {page : List α} (hphase : s.phase = .counted limit old now found)
    (hpage : IsPage stamp (· ∈ s.due stamp expiry now) limit page) :
    Sound stamp expiry { s with phase := .loaded old now found.card page.toFinset } := by
  have hcounted := h.phase
  rw [hphase] at hcounted
  have hlength := List.toFinset_card_of_nodup hpage.nodup
  have hmissing : (old.filter fun x ↦ now < expiry x ∧ x ∉ s.returned ∪ page.toFinset) ⊆
      found \ page.toFinset := by
    intro x hx
    obtain ⟨hx, hnow, hnot⟩ := Finset.mem_filter.mp hx
    rw [Finset.notMem_union] at hnot
    refine Finset.mem_sdiff.mpr ⟨hcounted.old_found x hx ?_ hnow, hnot.2⟩
    by_contra hle
    rcases hcounted.known x hx (Int.not_lt.mp hle) with hexp | hret
    · exact absurd hnow (Int.not_lt.mpr hexp)
    · exact hnot.1 hret
  refine ⟨h.positive, h.settled, hcounted.now_le, ?_, fun hcomplete x hx ↦ ?_⟩
  · refine (Finset.card_le_card hmissing).trans ?_
    rcases Nat.lt_or_ge limit found.card with hmore | hfew
    · have hsub : page.toFinset ⊆ found := fun x hx ↦
        page_found hcounted hpage hmore (List.mem_toFinset.mp hx)
      exact (Finset.card_sdiff_of_subset hsub).le
    · have hall := hcounted.fits.resolve_right fun hmore ↦ absurd hmore.1 (Nat.not_lt.mpr hfew)
      have hempty : found \ page.toFinset = ∅ := Finset.sdiff_eq_empty_iff_subset.mpr fun x hx ↦
        List.mem_toFinset.mpr (hpage.mem_of_card hall (hcounted.found_due hx))
      rw [hempty, Finset.card_empty]
      exact Nat.zero_le _
  · rw [hlength] at hcomplete
    have hfew := hcomplete.trans hpage.length_le
    have hall := hcounted.fits.resolve_right fun hmore ↦ absurd hmore.1 (Nat.not_lt.mpr hfew)
    by_cases hdue : s.cursor < stamp x ∧ now < expiry x
    · exact .inl (List.mem_toFinset.mpr (hpage.mem_of_card hall (Feed.mem_due.mpr ⟨hx, hdue⟩)))
    · refine .inr ((not_and_or.mp hdue).imp Int.not_lt.mp fun hexp ↦ ?_)
      exact (Int.not_lt.mp hexp).trans hcounted.now_le

theorem Sound.answer (h : s.Sound stamp expiry) {old page : Finset α} {now : Int} {total : Nat}
    (hphase : s.phase = .loaded old now total page) (stamped : Int) :
    Sound stamp expiry { s with
      cursor := if total ≤ page.card then stamped else s.cursor
      returned := s.returned ∪ page
      phase := .answered old now (total - page.card) } := by
  have hloaded := h.phase
  rw [hphase] at hloaded
  have hknown (x : α) (hx : x ∈ s.items) (hle : stamp x ≤ s.cursor) :
      expiry x ≤ s.clock ∨ x ∈ s.returned ∪ page :=
    (h.settled x hx hle).imp_right fun hret ↦ Finset.mem_union_left _ hret
  refine ⟨h.positive, fun x hx hle ↦ ?_, ?_⟩
  · simp only at hle
    split at hle
    next hcomplete =>
      rcases hloaded.complete hcomplete x hx with hpage | hbefore | hexp
      · exact .inr (Finset.mem_union_right _ hpage)
      · exact hknown x hx hbefore
      · exact .inl hexp
    next => exact hknown x hx hle
  · show Feed.Accounts _ _ _ _ _ _
    unfold Feed.Accounts
    rw [Finset.union_empty]
    exact hloaded.accounts

theorem Step.sound (hs : Step stamp expiry s s') (h : s.Sound stamp expiry) :
    s'.Sound stamp expiry := by
  cases hs with
  | tick hclock => exact h.tick hclock
  | add hx => exact h.add hx
  | start limit => exact h.start limit
  | read hphase => exact h.read hphase
  | count hphase => exact h.count hphase
  | load hphase hpage => exact h.load hphase hpage
  | answer hphase stamped => exact h.answer hphase stamped
  | finish => exact ⟨h.positive, h.settled, trivial⟩

/-- Whatever the order of the steps. -/
theorem Sound.steps (h : s.Sound stamp expiry)
    (hs : Relation.ReflTransGen (Step stamp expiry) s s') : s'.Sound stamp expiry := by
  induction hs with
  | refl => exact h
  | tail _ hs ih => exact hs.sound ih

end Polled

end ZenthDht
