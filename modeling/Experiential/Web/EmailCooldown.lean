import Experiential.Lib.Checked
import Experiential.Lib.Dict
import Experiential.Lib.Run

/-! # The cooldown of account emails

A replica remembers for each address when an email was last reserved. A request reserves, hands the email to the mailer,
and releases the reservation when the mailer refuses it. A release forgets the address, whoever reserved it last: two
emails go out in one window when a slow failure is released behind a later reservation. `at_most_one_email` says that
this is the only way. -/

namespace Experiential.Web

variable {ε κ : Type} [DecidableEq κ]

def emailCooldownMs : ℕ := 60000

section limiter

-- `email.trim().toLowerCase()`
variable (key : ε → κ)

/-- `allowEmailSend` -/
def allowEmailSend (lastEmailAt : Dict κ ℕ) (now : ℕ) (email : ε) : Bool × Dict κ ℕ :=
  match lastEmailAt.lookup (key email) with
  | some last => if now - last < emailCooldownMs then (false, lastEmailAt) else (true, lastEmailAt.insert (key email) now)
  | none => (true, lastEmailAt.insert (key email) now)

/-- `releaseEmailSend` -/
def releaseEmailSend (lastEmailAt : Dict κ ℕ) (email : ε) : Dict κ ℕ := lastEmailAt.erase (key email)

end limiter

/-! ### Requests -/

inductive SendPhase where
  | pending
  | dispatched
  | failed
  | released
deriving DecidableEq

/-- An email that was reserved. -/
structure Send (ε : Type) where
  email : ε
  reservedAt : ℕ
  phase : SendPhase

/-- It has reached the inbox, or may still. -/
def Send.Live (a : Send ε) : Prop := a.phase = .pending ∨ a.phase = .dispatched

/-- Go from one phase to the next. -/
def Send.move (before after : SendPhase) (a : Send ε) : Send ε :=
  if a.phase = before then { a with phase := after } else a

/-- A replica: the clock, the reservations, and the emails in the order in which they were reserved. -/
structure Replica (ε κ : Type) where
  now : ℕ
  lastEmailAt : Dict κ ℕ
  sends : List (Send ε)

/-- One step of the clock or of a request. -/
inductive SendEvent (ε : Type) where
  | tick (elapsed : ℕ)
  | reserve (email : ε)
  | succeed (i : ℕ)
  | fail (i : ℕ)
  | release (i : ℕ)

namespace Replica

variable (key : ε → κ)

def initial (now : ℕ) : Replica ε κ := ⟨now, ∅, []⟩

def reserve (s : Replica ε κ) (email : ε) : Replica ε κ :=
  if (allowEmailSend key s.lastEmailAt s.now email).1 then
    { s with
      lastEmailAt := (allowEmailSend key s.lastEmailAt s.now email).2
      sends := s.sends ++ [⟨email, s.now, .pending⟩] }
  else { s with lastEmailAt := (allowEmailSend key s.lastEmailAt s.now email).2 }

def move (s : Replica ε κ) (i : ℕ) (before after : SendPhase) : Replica ε κ :=
  { s with sends := s.sends.modify i (Send.move before after) }

/-- A request that failed releases what it reserved. -/
def release (s : Replica ε κ) (i : ℕ) : Replica ε κ :=
  match s.sends[i]? with
  | none => s
  | some a =>
    if a.phase = .failed then { s.move i .failed .released with lastEmailAt := releaseEmailSend key s.lastEmailAt a.email }
    else s

def step (s : Replica ε κ) : SendEvent ε → Replica ε κ
  | .tick elapsed => { s with now := s.now + elapsed }
  | .reserve email => s.reserve key email
  | .succeed i => s.move i .pending .dispatched
  | .fail i => s.move i .pending .failed
  | .release i => s.release key i

/-! ### What is promised -/

/-- Two emails of one address that reached the inbox were reserved a cooldown apart. -/
def Spaced (s : Replica ε κ) : Prop :=
  s.sends.Pairwise fun a b => key a.email = key b.email → a.phase = .dispatched → b.phase = .dispatched →
    a.reservedAt + emailCooldownMs ≤ b.reservedAt

/-- The latest reservation of an address. -/
def latest (s : Replica ε κ) (k : κ) : Option (Send ε) := s.sends.reverse.find? fun a => decide (key a.email = k)

/-- A failure is released when no email that was reserved for its address in the last window has reached the inbox or
may still. -/
def ReleasesOwn (s : Replica ε κ) : SendEvent ε → Prop
  | .release i => ∀ a, s.sends[i]? = some a → a.phase = .failed →
      ∀ b ∈ s.sends, key b.email = key a.email → b.Live → b.reservedAt + emailCooldownMs ≤ s.now
  | _ => True

/-- What is kept: reservations lie in the past, those that are not failed lie a cooldown apart, and one that is younger
than the cooldown is remembered. -/
structure Guarded (s : Replica ε κ) : Prop where
  past : ∀ a ∈ s.sends, a.reservedAt ≤ s.now
  apart : s.sends.Pairwise fun a b => key a.email = key b.email → a.Live → b.Live →
    a.reservedAt + emailCooldownMs ≤ b.reservedAt
  remembered : ∀ a ∈ s.sends, a.Live → s.now < a.reservedAt + emailCooldownMs →
    ∃ last, s.lastEmailAt.lookup (key a.email) = some last ∧ a.reservedAt ≤ last

end Replica

theorem allowEmailSend_eq_true {key : ε → κ} {lastEmailAt : Dict κ ℕ} {now : ℕ} {email : ε} :
    (allowEmailSend key lastEmailAt now email).1 = true ↔
      ∀ last, lastEmailAt.lookup (key email) = some last → emailCooldownMs ≤ now - last := by
  unfold allowEmailSend
  cases lastEmailAt.lookup (key email) with
  | none => simp
  | some last =>
    by_cases h : now - last < emailCooldownMs
    · simp [h]
    · simp [h, Nat.not_lt.mp h]

theorem allowEmailSend_snd {key : ε → κ} {lastEmailAt : Dict κ ℕ} {now : ℕ} {email : ε} :
    (allowEmailSend key lastEmailAt now email).2 =
      if (allowEmailSend key lastEmailAt now email).1 then lastEmailAt.insert (key email) now else lastEmailAt := by
  unfold allowEmailSend
  cases lastEmailAt.lookup (key email) with
  | none => rfl
  | some last => by_cases h : now - last < emailCooldownMs <;> simp [h]

/-! ### Phases -/

/-- The same reservation in a later phase: what is not over was not over before. -/
structure Send.Later (b a : Send ε) : Prop where
  email : b.email = a.email
  reservedAt : b.reservedAt = a.reservedAt
  live : b.Live → a.Live

theorem Send.Later.refl (a : Send ε) : a.Later a := ⟨rfl, rfl, id⟩

variable {before after : SendPhase}

theorem Send.later_move (h : before = .pending ∨ after = .released) (a : Send ε) : (a.move before after).Later a := by
  unfold Send.move
  split_ifs with hphase
  · refine ⟨rfl, rfl, fun hlive => ?_⟩
    obtain rfl | rfl := h
    · exact .inl hphase
    · rcases hlive with hlive | hlive <;> cases hlive
  · exact .refl a

theorem forall₂_modify {α : Type} (f : α → α) : ∀ (l : List α) (i : ℕ),
    List.Forall₂ (fun b a => b = a ∨ l[i]? = some a ∧ b = f a) (l.modify i f) l
  | [], i => by
      rw [List.modify_nil]
      exact .nil
  | a :: l, 0 => .cons (.inr ⟨rfl, rfl⟩) (List.forall₂_same.mpr fun b _ => .inl rfl)
  | a :: l, i + 1 => .cons (.inl rfl) (forall₂_modify f l i)

theorem later_modify (h : before = .pending ∨ after = .released) (l : List (Send ε)) (i : ℕ) :
    List.Forall₂ Send.Later (l.modify i (Send.move before after)) l := by
  refine (forall₂_modify _ l i).imp ?_
  rintro b a (rfl | ⟨-, rfl⟩)
  · exact .refl b
  · exact Send.later_move h a

/-- Reservations that lie apart still do in later phases. -/
theorem pairwise_later {T : Send ε → Send ε → Prop} {l' l : List (Send ε)} (h : List.Forall₂ Send.Later l' l)
    (hT : ∀ a b a' b', Send.Later a' a → Send.Later b' b → T a b → T a' b') (hl : l.Pairwise T) : l'.Pairwise T := by
  induction h with
  | nil => exact .nil
  | @cons a' a l' l ha h ih =>
    obtain ⟨hfirst, hrest⟩ := List.pairwise_cons.mp hl
    refine List.pairwise_cons.mpr ⟨fun b' hb' => ?_, ih hrest⟩
    obtain ⟨b, hb, hlater⟩ := exists_mem_of_forall₂ h b' hb'
    exact hT a b a' b' ha hlater (hfirst b hb)

namespace Replica

variable {key : ε → κ} {s : Replica ε κ}

theorem Guarded.of_later (h : Guarded key s) {sends : List (Send ε)} (hsends : List.Forall₂ Send.Later sends s.sends) :
    Guarded key { s with sends := sends } := by
  refine ⟨fun b hb => ?_, pairwise_later hsends ?_ h.apart, fun b hb hlive hyoung => ?_⟩
  · obtain ⟨a, ha, hlater⟩ := exists_mem_of_forall₂ hsends b hb
    rw [hlater.reservedAt]
    exact h.past a ha
  · intro a b a' b' ha hb hapart hkey hlive hlive'
    rw [ha.reservedAt, hb.reservedAt]
    exact hapart (ha.email ▸ hb.email ▸ hkey) (ha.live hlive) (hb.live hlive')
  · obtain ⟨a, ha, hlater⟩ := exists_mem_of_forall₂ hsends b hb
    rw [hlater.reservedAt] at hyoung ⊢
    rw [hlater.email]
    exact h.remembered a ha (hlater.live hlive) hyoung

theorem guarded_initial (now : ℕ) : Guarded key (initial now : Replica ε κ) := ⟨nofun, .nil, nofun⟩

theorem Guarded.tick (h : Guarded key s) (elapsed : ℕ) : Guarded key { s with now := s.now + elapsed } := by
  refine ⟨fun a ha => Nat.le_trans (h.past a ha) (Nat.le_add_right _ _), h.apart, fun a ha hlive hyoung => ?_⟩
  exact h.remembered a ha hlive (by change s.now + elapsed < _ at hyoung; omega)

/-- A reservation that is allowed lies a cooldown behind those that are not failed. -/
theorem Guarded.le_now (h : Guarded key s) {email : ε} (hallowed : (allowEmailSend key s.lastEmailAt s.now email).1 = true)
    {a : Send ε} (ha : a ∈ s.sends) (hkey : key a.email = key email) (hlive : a.Live) :
    a.reservedAt + emailCooldownMs ≤ s.now := by
  by_contra hyoung
  obtain ⟨last, hlast, hle⟩ := h.remembered a ha hlive (by omega)
  rw [hkey] at hlast
  have hpast := allowEmailSend_eq_true.mp hallowed last hlast
  have hpos : 0 < emailCooldownMs := by decide
  omega

theorem Guarded.reserve (h : Guarded key s) (email : ε) : Guarded key (s.reserve key email) := by
  unfold Replica.reserve
  rw [allowEmailSend_snd]
  split_ifs with hallowed
  · refine ⟨?_, List.pairwise_append.mpr ⟨h.apart, List.pairwise_singleton _ _, ?_⟩, ?_⟩
    · intro a ha
      rcases List.mem_append.mp ha with ha | ha
      · exact h.past a ha
      · rw [List.mem_singleton.mp ha]
    · intro a ha b hb hkey hlive _
      rw [List.mem_singleton.mp hb] at hkey ⊢
      exact h.le_now hallowed ha hkey hlive
    · intro a ha hlive hyoung
      rcases List.mem_append.mp ha with ha | ha
      · by_cases hkey : key a.email = key email
        · exact ⟨s.now, by rw [hkey, AList.lookup_insert], h.past a ha⟩
        · rw [AList.lookup_insert_ne hkey]
          exact h.remembered a ha hlive hyoung
      · rw [List.mem_singleton.mp ha]
        exact ⟨s.now, AList.lookup_insert _, Nat.le_refl _⟩
  · exact h

theorem Guarded.release (h : Guarded key s) {i : ℕ} (hown : ReleasesOwn key s (.release i)) :
    Guarded key (s.release key i) := by
  unfold Replica.release
  cases ha : s.sends[i]? with
  | none => exact h
  | some a =>
    dsimp only
    split_ifs with hfailed
    · have hlater : List.Forall₂ Send.Later (s.sends.modify i (Send.move .failed .released)) s.sends :=
        later_modify (.inr rfl) _ _
      obtain ⟨hpast, hapart, hremembered⟩ := h.of_later hlater
      refine ⟨hpast, hapart, fun b hb hlive hyoung => ?_⟩
      obtain ⟨last, hlast, hle⟩ := hremembered b hb hlive hyoung
      refine ⟨last, ?_, hle⟩
      have hne : key b.email ≠ key a.email := by
        intro hkey
        obtain ⟨c, hc, hbc⟩ := exists_mem_of_forall₂ hlater b hb
        have hold := hown a ha hfailed c hc (hbc.email ▸ hkey) (hbc.live hlive)
        rw [hbc.reservedAt] at hyoung
        change s.now < _ at hyoung
        omega
      exact (AList.lookup_erase_ne hne).trans hlast
    · exact h

theorem Guarded.step (h : Guarded key s) {e : SendEvent ε} (hown : ReleasesOwn key s e) : Guarded key (s.step key e) := by
  cases e with
  | tick elapsed => exact h.tick elapsed
  | reserve email => exact h.reserve email
  | succeed i | fail i => exact h.of_later (later_modify (.inl rfl) _ _)
  | release i => exact h.release hown

theorem Guarded.spaced (h : Guarded key s) : Spaced key s :=
  h.apart.imp fun happart hkey ha hb => happart hkey (.inr ha) (.inr hb)

/-! ### Released addresses -/

/-- An address whose latest reservation was released is forgotten. -/
def Forgets (key : ε → κ) (s : Replica ε κ) : Prop :=
  ∀ k a, latest key s k = some a → a.phase = .released → s.lastEmailAt.lookup k = none

/-- The latest reservation of an address in lists that correspond. -/
theorem exists_latest {l' l : List (Send ε)} {R : Send ε → Send ε → Prop} (h : List.Forall₂ R l' l)
    (hR : ∀ b a, R b a → b.email = a.email) {k : κ} {b : Send ε}
    (hb : (l'.find? fun a => decide (key a.email = k)) = some b) :
    ∃ a, (l.find? fun a => decide (key a.email = k)) = some a ∧ R b a := by
  induction h with
  | nil => cases hb
  | @cons b' a' l' l hba h ih =>
    rw [List.find?_cons] at hb ⊢
    rw [hR b' a' hba] at hb
    split at hb
    · exact ⟨a', rfl, Option.some.inj hb ▸ hba⟩
    · exact ih hb

theorem exists_latest_modify {i : ℕ} {k : κ} {b : Send ε} (hb : latest key (s.move i before after) k = some b) :
    ∃ a, latest key s k = some a ∧ (b = a ∨ s.sends[i]? = some a ∧ b = a.move before after) := by
  refine exists_latest (List.forall₂_reverse_iff.mpr (forall₂_modify _ s.sends i)) ?_ hb
  rintro b a (rfl | ⟨-, rfl⟩)
  · rfl
  · unfold Send.move
    split <;> rfl

theorem key_of_latest {k : κ} {a : Send ε} (h : latest key s k = some a) : key a.email = k := by
  simpa using List.find?_some h

theorem Forgets.move (h : Forgets key s) {i : ℕ} (hafter : after ≠ .released) :
    Forgets key (s.move i before after) := by
  intro k b hb hreleased
  obtain ⟨a, ha, rfl | ⟨-, rfl⟩⟩ := exists_latest_modify hb
  · exact h k b ha hreleased
  · refine h k a ha ?_
    unfold Send.move at hreleased
    split_ifs at hreleased
    · exact (hafter hreleased).elim
    · exact hreleased

theorem Forgets.reserve (h : Forgets key s) (email : ε) : Forgets key (s.reserve key email) := by
  unfold Replica.reserve
  rw [allowEmailSend_snd]
  split_ifs with hallowed
  · intro k b hb hreleased
    rw [latest, List.reverse_append, List.reverse_singleton, List.singleton_append, List.find?_cons] at hb
    by_cases hkey : key email = k
    · simp only [hkey, decide_true] at hb
      obtain rfl := Option.some.inj hb
      cases hreleased
    · simp only [hkey, decide_false] at hb
      exact (AList.lookup_insert_ne (Ne.symm hkey)).trans (h k b hb hreleased)
  · exact h

theorem Forgets.release (h : Forgets key s) (i : ℕ) : Forgets key (s.release key i) := by
  unfold Replica.release
  cases ha : s.sends[i]? with
  | none => exact h
  | some a =>
    dsimp only
    split_ifs with hfailed
    · intro k b hb hreleased
      by_cases hkey : k = key a.email
      · rw [hkey]
        exact AList.lookup_erase _ _
      · obtain ⟨c, hc, rfl | ⟨hci, -⟩⟩ := exists_latest_modify hb
        · exact (AList.lookup_erase_ne hkey).trans (h k b hc hreleased)
        · obtain rfl := Option.some.inj (ha.symm.trans hci)
          exact (hkey (key_of_latest hc).symm).elim
    · exact h

theorem Forgets.step (h : Forgets key s) (e : SendEvent ε) : Forgets key (s.step key e) := by
  cases e with
  | tick elapsed => exact h
  | reserve email => exact h.reserve email
  | succeed i | fail i => exact h.move (by decide)
  | release i => exact h.release i

end Replica

/-- **One email for each address and window**, in every run in which no failure is released behind a later reservation; and
in every run an address whose latest reservation was released can be reserved at once. -/
theorem at_most_one_email (key : ε → κ) (now : ℕ) (events : List (SendEvent ε)) :
    (StepsMeet (Replica.step key) (Replica.ReleasesOwn key) (.initial now) events →
      Replica.Spaced key (run (Replica.step key) (.initial now) events)) ∧
    ∀ (email : ε) (a : Send ε), Replica.latest key (run (Replica.step key) (.initial now) events) (key email) = some a →
      a.phase = .released →
      (allowEmailSend key (run (Replica.step key) (.initial now) events).lastEmailAt
        (run (Replica.step key) (.initial now) events).now email).1 = true := by
  constructor
  · intro hown
    have hguarded : Replica.Guarded key (run (Replica.step key) (.initial now) events) :=
      run_invariant (I := Replica.Guarded key) (fun _ _ hC hs => hs.step hC) events _ (Replica.guarded_initial now) hown
    exact hguarded.spaced
  · intro email a ha hreleased
    have hforgets : Replica.Forgets key (run (Replica.step key) (.initial now) events) :=
      run_invariant_of_forall (I := Replica.Forgets key) (fun _ e hs => hs.step e) events _ (fun _ _ h => by cases h)
    refine allowEmailSend_eq_true.mpr fun last hlast => ?_
    rw [hforgets (key email) a ha hreleased] at hlast
    cases hlast

/-- A send that fails after its window, behind a second one that succeeds. -/
def slowFailure : List (SendEvent ℕ) :=
  [.reserve 0, .tick 61000, .reserve 0, .succeed 1, .tick 9000, .fail 0, .release 0, .reserve 0, .succeed 2]

/-- Two emails to one address within nine seconds. -/
theorem two_emails_in_one_window :
    let s := run (Replica.step id) (.initial 0) slowFailure
    s.sends.map (fun a => (a.reservedAt, a.phase)) = [(0, .released), (61000, .dispatched), (70000, .dispatched)] ∧
      ¬ Replica.Spaced id s := by
  have hsends : (run (Replica.step id) (.initial 0) slowFailure).sends =
      [⟨0, 0, .released⟩, ⟨0, 61000, .dispatched⟩, ⟨0, 70000, .dispatched⟩] := by rfl
  refine ⟨by rw [hsends]; rfl, fun hspaced => ?_⟩
  unfold Replica.Spaced at hspaced
  rw [hsends] at hspaced
  have h := (List.pairwise_cons.mp (List.pairwise_cons.mp hspaced).2).1 ⟨0, 70000, .dispatched⟩ (by simp) rfl rfl rfl
  exact absurd h (by decide)

/-- A failure that is released at once, and an email behind it. -/
theorem at_most_one_email_released :
    let s := run (Replica.step id) (.initial 0) [.reserve 0, .fail 0, .release 0, .reserve 0, .succeed 1, .reserve 0]
    s.sends.map (fun a => (a.reservedAt, a.phase)) = [(0, .released), (0, .dispatched)] ∧ Replica.Spaced id s ∧
      (allowEmailSend id (run (Replica.step id) (.initial 0) [.reserve 0, .fail 0, .release 0]).lastEmailAt 0 0).1 = true := by
  refine ⟨rfl, (at_most_one_email id 0 _).1 ⟨trivial, trivial, ?_, trivial, trivial, trivial, trivial⟩, ?_⟩
  · rintro a ha - b hb - hlive
    change [Send.mk 0 0 SendPhase.failed][0]? = some a at ha
    change b ∈ [Send.mk 0 0 SendPhase.failed] at hb
    rw [List.mem_singleton.mp hb] at hlive
    rcases hlive with h | h <;> cases h
  · exact (at_most_one_email id 0 [.reserve 0, .fail 0, .release 0]).2 0 ⟨0, 0, .released⟩ rfl rfl

end Experiential.Web
