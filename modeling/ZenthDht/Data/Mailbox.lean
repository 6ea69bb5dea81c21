import Mathlib.Data.Set.Insert
import ZenthDht.Data.Page

/-!
# A mailbox read through a cursor

Entries with an id and an expiry date are pushed into a mailbox.  Its owner reads pages of the
entries beyond the id it read last, its *cursor*, and acknowledges everything up to the cursor;
expired entries are purged.  An entry at or below the cursor will never be on a page again, so
an entry that gets there without having been returned is lost.

`Mailbox` carries the invariant that says which entries these can be: what is stored at or below
the cursor has been returned or was *skipped*, and what is neither stored nor returned was
skipped or purged.  An entry is skipped when it has expired at the time of a page that goes
past it, and when it is pushed below the cursor in the first place; each operation says so in
its arguments.
-/

namespace ZenthDht

variable {α τ : Type}

/-- The id of the last entry of a list, and 0 for none. -/
def lastId (id : α → Nat) (l : List α) : Nat := (l.getLast?.map id).getD 0

@[simp] theorem lastId_append_singleton (id : α → Nat) (l : List α) (x : α) :
    lastId id (l ++ [x]) = id x := by
  simp [lastId]

/-- In a list with increasing ids the last one is the largest. -/
theorem le_lastId {id : α → Nat} {l : List α} (h : l.Pairwise fun x y ↦ id x < id y) {x : α}
    (hx : x ∈ l) : id x ≤ lastId id l := by
  rcases List.eq_nil_or_concat l with rfl | ⟨l', y, rfl⟩
  · exact absurd hx List.not_mem_nil
  · rw [List.concat_eq_append] at h hx ⊢
    rw [lastId_append_singleton]
    rcases List.mem_append.mp hx with hx | hx
    · exact ((List.pairwise_append.mp h).2.2 x hx y (List.mem_singleton.mpr rfl)).le
    · rw [List.mem_singleton.mp hx]

/-- The state of a mailbox and of the owner that reads it. -/
structure Mailbox (id : α → Nat) (expiry : α → τ) where
  pushed : Set α
  stored : Set α
  returned : List α
  skipped : Set α
  purged : Set α
  id_inj : ∀ x ∈ pushed, ∀ y ∈ pushed, id x = id y → x = y
  stored_pushed : ∀ x ∈ stored, x ∈ pushed
  returned_pushed : ∀ x ∈ returned, x ∈ pushed
  increasing : returned.Pairwise fun x y ↦ id x < id y
  /-- What is stored at or below the cursor was returned or skipped. -/
  passed : ∀ x ∈ stored, id x ≤ lastId id returned → x ∈ returned ∨ x ∈ skipped
  /-- Nothing else is lost. -/
  kept : ∀ x ∈ pushed, x ∈ stored ∨ x ∈ returned ∨ x ∈ skipped ∨ x ∈ purged

namespace Mailbox

variable {id : α → Nat} {expiry : α → τ}

/-- Nothing has been pushed. -/
def empty : Mailbox id expiry where
  pushed := ∅
  stored := ∅
  returned := []
  skipped := ∅
  purged := ∅
  id_inj := by simp
  stored_pushed := by simp
  returned_pushed := by simp
  increasing := .nil
  passed := by simp
  kept := by simp

variable (b : Mailbox id expiry)

/-- The id of the entry returned last. -/
def cursor : Nat := lastId id b.returned

theorem returned_le_cursor {x : α} (hx : x ∈ b.returned) : id x ≤ b.cursor :=
  le_lastId b.increasing hx

/-- Push an entry with a new id.  If it is not beyond the cursor, it is skipped. -/
def push (x : α) (hid : ∀ y ∈ b.pushed, id y ≠ id x) : Mailbox id expiry where
  pushed := insert x b.pushed
  stored := insert x b.stored
  returned := b.returned
  skipped := b.skipped ∪ {y | y = x ∧ id x ≤ b.cursor}
  purged := b.purged
  id_inj := by
    rintro y (rfl | hy) z (rfl | hz) h
    · rfl
    · exact absurd h.symm (hid z hz)
    · exact absurd h (hid y hy)
    · exact b.id_inj y hy z hz h
  stored_pushed := fun y hy ↦ hy.imp_right (b.stored_pushed y)
  returned_pushed := fun y hy ↦ .inr (b.returned_pushed y hy)
  increasing := b.increasing
  passed := by
    rintro y (rfl | hy) hle
    · exact .inr (.inr ⟨rfl, hle⟩)
    · exact (b.passed y hy hle).imp_right .inl
  kept := by
    rintro y (rfl | hy)
    · exact .inl (.inl rfl)
    · exact (b.kept y hy).imp .inr (Or.imp_right (Or.imp_left .inl))

variable [LinearOrder τ]

/-- Whether an entry is beyond the cursor and has not expired. -/
def Unread (now : τ) (x : α) : Prop := x ∈ b.stored ∧ b.cursor < id x ∧ now < expiry x

/-- Return a page.  Expired entries that it goes past are skipped. -/
def fetch (now : τ) {limit : Nat} {page : List α} (hpage : IsPage id (b.Unread now) limit page) :
    Mailbox id expiry where
  pushed := b.pushed
  stored := b.stored
  returned := b.returned ++ page
  skipped := b.skipped ∪ {x | x ∈ b.stored ∧ b.cursor < id x ∧ expiry x ≤ now}
  purged := b.purged
  id_inj := b.id_inj
  stored_pushed := b.stored_pushed
  returned_pushed := fun x hx ↦ (List.mem_append.mp hx).elim (b.returned_pushed x)
    fun hx ↦ b.stored_pushed x (hpage.sound x hx).1
  increasing := by
    refine List.pairwise_append.mpr ⟨b.increasing, ?_, fun x hx y hy ↦ ?_⟩
    · refine (hpage.sorted.and hpage.nodup).imp_of_mem fun {x y} hx hy h ↦ lt_of_le_of_ne h.1 ?_
      exact fun he ↦ h.2 (b.id_inj x (b.stored_pushed x (hpage.sound x hx).1) y
        (b.stored_pushed y (hpage.sound y hy).1) he)
    · exact (b.returned_le_cursor hx).trans_lt (hpage.sound y hy).2.1
  passed := by
    intro x hx hle
    by_cases hold : id x ≤ b.cursor
    · exact (b.passed x hx hold).imp (List.mem_append_left _) .inl
    have hnew : b.cursor < id x := not_le.mp hold
    by_cases hexp : expiry x ≤ now
    · exact .inr (.inr ⟨hx, hnew, hexp⟩)
    · -- an unread entry is on the page, or the page is full and ends before it
      refine .inl (List.mem_append_right _ ?_)
      rcases hpage.rest x ⟨hx, hnew, not_le.mp hexp⟩ with hmem | ⟨-, hbefore⟩
      · exact hmem
      · rcases List.eq_nil_or_concat page with rfl | ⟨p, y, rfl⟩
        · rw [List.append_nil] at hle
          exact absurd hle hold
        · rw [List.concat_eq_append] at hle hbefore ⊢ hpage
          rw [← List.append_assoc, lastId_append_singleton] at hle
          have hy : y ∈ p ++ [y] := List.mem_append_right _ (List.mem_singleton.mpr rfl)
          obtain rfl := b.id_inj x (b.stored_pushed x hx) y
            (b.stored_pushed y (hpage.sound y hy).1) (hle.antisymm (hbefore y hy))
          exact hy
  kept := fun x hx ↦ (b.kept x hx).imp_right
    (Or.imp (List.mem_append_left _) (Or.imp_left .inl))

/-- Acknowledge everything up to the cursor. -/
def ack : Mailbox id expiry where
  pushed := b.pushed
  stored := {x ∈ b.stored | b.cursor < id x}
  returned := b.returned
  skipped := b.skipped
  purged := b.purged
  id_inj := b.id_inj
  stored_pushed := fun x hx ↦ b.stored_pushed x hx.1
  returned_pushed := b.returned_pushed
  increasing := b.increasing
  passed := fun x hx hle ↦ absurd hx.2 (not_lt.mpr hle)
  kept := by
    intro x hx
    rcases b.kept x hx with hstored | hrest
    · by_cases hle : id x ≤ b.cursor
      · exact .inr ((b.passed x hstored hle).imp_right .inl)
      · exact .inl ⟨hstored, not_le.mp hle⟩
    · exact .inr hrest

/-- Drop the entries that expired before `now`. -/
def purge (now : τ) : Mailbox id expiry where
  pushed := b.pushed
  stored := {x ∈ b.stored | now ≤ expiry x}
  returned := b.returned
  skipped := b.skipped
  purged := b.purged ∪ {x | expiry x < now}
  id_inj := b.id_inj
  stored_pushed := fun x hx ↦ b.stored_pushed x hx.1
  returned_pushed := b.returned_pushed
  increasing := b.increasing
  passed := fun x hx ↦ b.passed x hx.1
  kept := by
    intro x hx
    rcases b.kept x hx with hstored | hreturned | hskipped | hpurged
    · by_cases hexp : now ≤ expiry x
      · exact .inl ⟨hstored, hexp⟩
      · exact .inr (.inr (.inr (.inr (not_le.mp hexp))))
    · exact .inr (.inl hreturned)
    · exact .inr (.inr (.inl hskipped))
    · exact .inr (.inr (.inr (.inl hpurged)))

/-- After a page that is not full, every entry that was not skipped or purged and has not expired
has been returned. -/
theorem returned_of_short {now : τ} {limit : Nat} {page : List α}
    (hpage : IsPage id (b.Unread now) limit page) (hlen : page.length < limit) {x : α}
    (hx : x ∈ b.pushed) (hexp : now < expiry x) (hskipped : x ∉ b.skipped)
    (hpurged : x ∉ b.purged) : x ∈ (b.fetch now hpage).returned := by
  rcases b.kept x hx with hstored | hreturned | hskip | hpurge
  · by_cases hle : id x ≤ b.cursor
    · exact List.mem_append_left _ ((b.passed x hstored hle).resolve_right hskipped)
    · exact List.mem_append_right _ (hpage.mem_of_short hlen ⟨hstored, not_le.mp hle, hexp⟩)
  · exact List.mem_append_left _ hreturned
  · exact absurd hskip hskipped
  · exact absurd hpurge hpurged

end Mailbox

end ZenthDht
