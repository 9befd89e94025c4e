import Dethernety.ControlLibrary.Lock

/-!
# Mutual exclusion of the model-directory lock

At most one live call holds a handle, and nobody unlinks the lock of a live holder, in every run
in which the two branches that act on an *absent* file are not taken:

* the re-read under the break claim finds no lock file while the first read had found nothing
  readable either (`undefined?.nonce === undefined?.nonce`), so the breaker goes on to unlink a
  slot a fresh acquirer may fill in between;
* the clean-up of a claim that counted as abandoned unlinks the claim of a live breaker.

`breaksOnlyWhatItRead` states that these branches are not taken. `Inv` is the inductive invariant
of such runs: a call under the claim is live and the claim is its own, a live owner's payload is
in the lock, and a lock about to be unlinked as stale is corrupt or belongs to a dead process.
Without the condition the first branch lets two processes hold the lock
(`two_holders_of_absent_recheck`).
-/

open List Function

namespace ControlLibrary.Lock

variable {ι : Type} {modelDir : String} {payload : ι → LockPayload}

/-- The condition on the state before a step: a breaker that read nothing does not re-read an
absent lock, and a claim is cleaned up only when no live process holds it. -/
def breaksOnlyWhatItRead (s : State ι) : Event ι → Bool
  | .step c =>
    match s.phase c, s.claim with
    | .recheck none, _ => s.lock ≠ .absent
    | .cleanClaim _, .holds p => !s.alive p.pid
    | _, _ => true
  | _ => true

/-! ## The invariant -/

/-- The phases in which the lock file carries the call's own payload. -/
@[simp]
def Phase.OwnsLock : Phase → Prop
  | .holding | .confirm | .unclaim none | .releaseUnlink => True
  | _ => False

/-- A lock nobody live stands behind. -/
def Stale (alive : ℤ → Bool) (slot : Slot) : Prop :=
  slot = .corrupt ∨ ∃ p, slot = .holds p ∧ alive p.pid = false

/-- The payloads a run can meet: the one found at the start and those of the calls. -/
def Known (payload : ι → LockPayload) (initial : Slot) (p : LockPayload) : Prop :=
  initial = .holds p ∨ ∃ c, p = payload c

/-- The inductive invariant of a run from lock content `initial`. -/
structure Inv (payload : ι → LockPayload) (initial : Slot) (s : State ι) : Prop where
  claim_held : ∀ c, (s.phase c).HoldsClaim →
    s.alive (payload c).pid = true ∧ s.claim = .holds (payload c)
  lock_owned : ∀ c, s.alive (payload c).pid = true → (s.phase c).OwnsLock →
    s.lock = .holds (payload c)
  lock_stale : ∀ c, s.phase c = .unlinkStale → Stale s.alive s.lock
  lock_known : ∀ p, s.lock = .holds p → Known payload initial p
  probe_known : ∀ c p, s.phase c = .probe p → Known payload initial p
  holder_dead : ∀ c p, s.phase c = .linkClaim (some p) ∨ s.phase c = .recheck (some p) →
    Known payload initial p ∧ s.alive p.pid = false

lemma Known.eq_of_nonce {initial : Slot} {p q : LockPayload} (hnonce : Injective fun c => (payload c).nonce)
    (hinit : ∀ p, initial = .holds p → ∀ c, p.nonce ≠ (payload c).nonce)
    (hp : Known payload initial p) (hq : Known payload initial q) (h : p.nonce = q.nonce) : p = q := by
  rcases hp with hp | ⟨c, rfl⟩
  · rcases hq with hq | ⟨d, rfl⟩
    · exact Slot.holds.inj (hp.symm.trans hq)
    · exact absurd h (hinit p hp d)
  · rcases hq with hq | ⟨d, rfl⟩
    · exact absurd h.symm (hinit q hq c)
    · rw [hnonce h]

section

variable {initial : Slot} {s : State ι}

lemma Inv.claim_unique (hnonce : Injective fun c => (payload c).nonce) (h : Inv payload initial s) {c d : ι}
    (hc : (s.phase c).HoldsClaim) (hd : (s.phase d).HoldsClaim) : c = d := by
  have hcd := (h.claim_held c hc).2.symm.trans (h.claim_held d hd).2
  exact hnonce (congrArg LockPayload.nonce (Slot.holds.inj hcd))

variable (h : Inv payload initial s)
include h

/-- A phase change keeps the invariant if the new phase is entitled to what it claims. -/
lemma Inv.goto [DecidableEq ι] (c : ι) (ph : Phase)
    (hclaim : ph.HoldsClaim → s.alive (payload c).pid = true ∧ s.claim = .holds (payload c) := by simp)
    (hown : ph.OwnsLock → s.lock = .holds (payload c) := by simp)
    (hstale : ph = .unlinkStale → Stale s.alive s.lock := by simp)
    (hprobe : ∀ p, ph = .probe p → Known payload initial p := by simp)
    (hdead : ∀ p, ph = .linkClaim (some p) ∨ ph = .recheck (some p) →
      Known payload initial p ∧ s.alive p.pid = false := by simp) :
    Inv payload initial (s.goto c ph) := by
  have hself : (s.goto c ph).phase c = ph := by simp [State.goto]
  have hother : ∀ d, d ≠ c → (s.goto c ph).phase d = s.phase d := fun d hd => by
    simp [State.goto, hd]
  constructor
  case lock_known => exact h.lock_known
  -- Every other field speaks of one call `d`: the new phase if `d = c`, the old one otherwise.
  all_goals intro d; rcases eq_or_ne d c with rfl | hd
  all_goals first | rw [hself] | rw [hother d hd]
  · exact hclaim
  · exact h.claim_held d
  · exact fun _ => hown
  · exact h.lock_owned d
  · exact hstale
  · exact h.lock_stale d
  · exact hprobe
  · exact h.probe_known d
  · exact hdead
  · exact h.holder_dead d

lemma Inv.goto_idle [DecidableEq ι] (c : ι) (ph : Phase)
    (hph : ¬ ph.HoldsClaim ∧ ¬ ph.OwnsLock ∧ ph ≠ .unlinkStale ∧ (∀ p, ph ≠ .probe p) ∧
      ∀ p, ph ≠ .linkClaim (some p) ∧ ph ≠ .recheck (some p)) : Inv payload initial (s.goto c ph) := by
  obtain ⟨h1, h2, h3, h4, h5⟩ := hph
  refine h.goto c ph (fun hc => absurd hc h1) (fun ho => absurd ho h2) (fun hs => absurd hs h3)
    (fun p hp => absurd hp (h4 p)) ?_
  rintro p (hp | hp)
  · exact absurd hp (h5 p).1
  · exact absurd hp (h5 p).2

lemma Inv.placeLock (c : ι) (hfree : s.lock = .absent) :
    Inv payload initial { s with lock := .holds (payload c) } :=
  { h with
    lock_owned := fun d ha ho => by
      have := h.lock_owned d ha ho
      simp [hfree] at this
    lock_stale := fun d hd => by
      have := h.lock_stale d hd
      simp [Stale, hfree] at this
    lock_known := fun p hp => .inr ⟨c, (Slot.holds.inj hp).symm⟩ }

lemma Inv.freeLock (hown : ∀ d, s.alive (payload d).pid = true → ¬ (s.phase d).OwnsLock)
    (hstale : ∀ d, s.phase d ≠ .unlinkStale) :
    Inv payload initial { s with lock := .absent } :=
  { h with
    lock_owned := fun d ha ho => absurd ho (hown d ha)
    lock_stale := fun d hd => absurd hd (hstale d)
    lock_known := fun p hp => by simp at hp }

lemma Inv.placeClaim (c : ι) (hfree : s.claim = .absent) :
    Inv payload initial { s with claim := .holds (payload c) } :=
  { h with
    claim_held := fun d hd => by
      have := (h.claim_held d hd).2
      simp [hfree] at this }

lemma Inv.freeClaim (hnone : ∀ d, ¬ (s.phase d).HoldsClaim) :
    Inv payload initial { s with claim := .absent } :=
  { h with claim_held := fun d hd => absurd hd (hnone d) }

lemma Inv.crash (pid : ℤ) (hnone : ∀ c, (payload c).pid = pid → ¬ (s.phase c).HoldsClaim) :
    Inv payload initial { s with alive := update s.alive pid false } := by
  have hle : ∀ q, update s.alive pid false q = true → s.alive q = true := by
    intro q hq
    rcases eq_or_ne q pid with rfl | hne
    · simp at hq
    · simpa [hne] using hq
  have hdead : ∀ q, s.alive q = false → update s.alive pid false q = false := by
    intro q hq
    by_contra hne
    have := hle q (by simpa using hne)
    simp [hq] at this
  constructor
  · intro c hc
    obtain ⟨ha, hcl⟩ := h.claim_held c hc
    have hne : (payload c).pid ≠ pid := fun he => hnone c he hc
    exact ⟨by simpa [hne] using ha, hcl⟩
  · exact fun c ha => h.lock_owned c (hle _ ha)
  · intro c hc
    rcases h.lock_stale c hc with hs | ⟨p, hp, hpd⟩
    · exact .inl hs
    · exact .inr ⟨p, hp, hdead _ hpd⟩
  · exact h.lock_known
  · exact h.probe_known
  · exact fun c p hp => ⟨(h.holder_dead c p hp).1, hdead _ (h.holder_dead c p hp).2⟩

end

/-! ## One step, and whole runs -/

section

variable [DecidableEq ι] {initial : Slot} {s s' : State ι} {c : ι}

omit [DecidableEq ι] in
/-- The re-read under the claim matched: the lock is corrupt or still bears the dead payload. -/
lemma Inv.stale_of_recheck (hnonce : Injective fun c => (payload c).nonce)
    (hinit : ∀ p, initial = .holds p → ∀ c, p.nonce ≠ (payload c).nonce)
    (h : Inv payload initial s) {holder : Option LockPayload}
    (hph : s.phase c = .recheck holder) (hok : breaksOnlyWhatItRead s (.step c) = true)
    (hsame : s.lock.readHolder.map LockPayload.nonce = holder.map LockPayload.nonce) : Stale s.alive s.lock := by
  cases hlock : s.lock with
  | absent =>
    cases holder with
    | none => simp [breaksOnlyWhatItRead, hph, hlock] at hok
    | some p => simp [hlock, Slot.readHolder] at hsame
  | corrupt => exact .inl rfl
  | holds q =>
    cases holder with
    | none => simp [hlock, Slot.readHolder] at hsame
    | some p =>
      obtain ⟨hp, hdead⟩ := h.holder_dead c p (.inr hph)
      have hqp : q.nonce = p.nonce := by simpa [hlock, Slot.readHolder] using hsame
      obtain rfl := Known.eq_of_nonce hnonce hinit (h.lock_known q hlock) hp hqp
      exact .inr ⟨q, rfl, hdead⟩

section

variable (hnonce : Injective fun c => (payload c).nonce)
include hnonce

lemma Inv.unlinkStale (h : Inv payload initial s) (hph : s.phase c = .unlinkStale) :
    Inv payload initial ({ s with lock := .absent }.goto c .linkFreed) := by
  have hclaim := h.claim_held c (by simp [hph])
  have hgo : Inv payload initial (s.goto c .linkFreed) :=
    h.goto c _ (fun _ => hclaim)
  refine hgo.freeLock ?_ ?_
  · intro d hda hdo
    have hdl := hgo.lock_owned d hda hdo
    rcases h.lock_stale c hph with hc | ⟨p, hp, hdead⟩
    · simp [State.goto, hc] at hdl
    · obtain rfl : p = payload d := Slot.holds.inj (hp.symm.trans hdl)
      simp only [State.goto] at hda
      simp [hdead] at hda
  · intro d hd
    obtain rfl : c = d := hgo.claim_unique hnonce (by simp [State.goto]) (by simp [hd])
    simp [State.goto] at hd

lemma Inv.releaseUnlink (h : Inv payload initial s) (halive : s.alive (payload c).pid = true)
    (hph : s.phase c = .releaseUnlink) :
    Inv payload initial ({ s with lock := .absent }.goto c .released) := by
  have hlock := h.lock_owned c halive (by simp [hph])
  have hgo : Inv payload initial (s.goto c .released) := h.goto_idle c _ (by simp)
  refine hgo.freeLock ?_ ?_
  · intro d hda hdo
    have hdl := hgo.lock_owned d hda hdo
    obtain rfl : d = c :=
      hnonce (congrArg LockPayload.nonce (Slot.holds.inj (hdl.symm.trans hlock)))
    simp [State.goto] at hdo
  · intro d hd
    rcases hgo.lock_stale d hd with hc | ⟨p, hp, hdead⟩
    · simp [State.goto, hlock] at hc
    · obtain rfl : p = payload c := Slot.holds.inj (hp.symm.trans hlock)
      simp only [State.goto] at hdead
      simp [halive] at hdead

lemma Inv.not_holdsClaim_goto (h : Inv payload initial s) (hc : (s.phase c).HoldsClaim) {ph : Phase}
    (hph : ¬ ph.HoldsClaim) (d : ι) : ¬ ((s.goto c ph).phase d).HoldsClaim := by
  intro hd
  rcases eq_or_ne d c with rfl | hne
  · exact hph (by simpa [State.goto] using hd)
  · have hd' : (s.phase d).HoldsClaim := by simpa [State.goto, hne] using hd
    exact hne (h.claim_unique hnonce hd' hc)

lemma Inv.advance (hinit : ∀ p, initial = .holds p → ∀ c, p.nonce ≠ (payload c).nonce)
    (h : Inv payload initial s) (halive : s.alive (payload c).pid = true)
    (hok : breaksOnlyWhatItRead s (.step c) = true)
    (hnext : advance modelDir payload s c = some s') : Inv payload initial s' := by
  have hclaim : (s.phase c).HoldsClaim →
      s.alive (payload c).pid = true ∧ s.claim = .holds (payload c) := h.claim_held c
  have hown : (s.phase c).OwnsLock → s.lock = .holds (payload c) := h.lock_owned c halive
  unfold Lock.advance at hnext
  cases hph : s.phase c with
  | start =>
    simp only [hph] at hnext
    cases hlock : s.lock <;> simp only [hlock, Slot.placeOurPayload] at hnext <;> cases hnext
    · exact (h.placeLock c hlock).goto c _ (by simp) (fun _ => rfl)
    all_goals exact h.goto_idle c _ (by simp)
  | inspect =>
    simp only [hph] at hnext
    cases hlock : s.lock <;> simp only [hlock, Slot.readHolder] at hnext <;> cases hnext
    · exact h.goto_idle c _ (by simp)
    · exact h.goto_idle c _ (by simp)
    · refine h.goto c _ (by simp) (by simp) (by simp) ?_
      rintro p ⟨⟩
      exact h.lock_known _ hlock
  | probe holder =>
    simp only [hph] at hnext
    split at hnext <;> cases hnext
    · exact h.goto_idle c _ (by simp)
    · rename_i hdead
      refine h.goto c _ (by simp) (by simp) (by simp) (by simp) ?_
      rintro p (⟨⟨⟩⟩ | ⟨⟨⟩⟩)
      exact ⟨h.probe_known c _ hph, by simpa using hdead⟩
  | linkClaim holder =>
    simp only [hph] at hnext
    cases hfree : s.claim <;> simp only [hfree, Slot.placeOurPayload] at hnext <;> cases hnext
    · refine (h.placeClaim c hfree).goto c _ (fun _ => ⟨halive, rfl⟩)
        (by simp) (by simp) (by simp) ?_
      rintro p (⟨⟨⟩⟩ | ⟨⟨⟩⟩)
      exact h.holder_dead c p (.inl hph)
    all_goals exact h.goto_idle c _ (by simp)
  | readClaim holder =>
    simp only [hph] at hnext
    cases hread : s.claim <;> simp only [hread, Slot.readHolder] at hnext <;> cases hnext
    all_goals exact h.goto_idle c _ (by simp)
  | probeClaim =>
    simp only [hph] at hnext
    split at hnext <;> cases hnext
    all_goals exact h.goto_idle c _ (by simp)
  | cleanClaim holder =>
    simp only [hph] at hnext
    cases hnext
    -- By the condition nobody live has the claim, so no call is under it.
    have hfree : ∀ d, ¬ (s.phase d).HoldsClaim := by
      intro d hd
      obtain ⟨hda, hdc⟩ := h.claim_held d hd
      simp [breaksOnlyWhatItRead, hph, hdc, hda] at hok
    exact (h.freeClaim hfree).goto_idle c _ (by simp)
  | recheck holder =>
    simp only [hph] at hnext hclaim
    split at hnext <;> cases hnext
    · exact h.goto c _ (fun _ => hclaim trivial)
    · rename_i hsame
      refine h.goto c _ (fun _ => hclaim trivial) (by simp) (fun _ => ?_)
      exact h.stale_of_recheck hnonce hinit hph hok (by simpa using hsame)
  | unlinkStale =>
    simp only [hph] at hnext
    cases hnext
    exact h.unlinkStale hnonce hph
  | linkFreed =>
    simp only [hph] at hnext hclaim
    cases hlock : s.lock <;> simp only [hlock, Slot.placeOurPayload] at hnext <;> cases hnext
    · exact (h.placeLock c hlock).goto c _ (fun _ => hclaim trivial) (fun _ => rfl)
    all_goals exact h.goto c _ (fun _ => hclaim trivial)
  | confirm =>
    simp only [hph] at hnext hclaim hown
    split at hnext <;> cases hnext
    · exact h.goto c _ (fun _ => hclaim trivial) (fun _ => hown trivial)
    · exact h.goto c _ (fun _ => hclaim trivial)
  | readRace =>
    simp only [hph] at hnext hclaim
    cases hnext
    exact h.goto c _ (fun _ => hclaim trivial)
  | unclaim error =>
    have hleave : ∀ ph : Phase, ¬ ph.HoldsClaim →
        ∀ d, ¬ ((s.goto c ph).phase d).HoldsClaim := fun ph hout =>
      h.not_holdsClaim_goto hnonce (by simp [hph]) hout
    cases error with
    | none =>
      simp only [hph] at hnext hown
      cases hnext
      have hgo : Inv payload initial (s.goto c .holding) :=
        h.goto c _ (by simp) (fun _ => hown trivial)
      exact hgo.freeClaim (hleave _ (by simp))
    | some e =>
      simp only [hph] at hnext
      cases hnext
      exact (h.goto_idle c (.busy e) (by simp)).freeClaim (hleave _ (by simp))
  | releaseRead =>
    simp only [hph] at hnext
    split at hnext <;> cases hnext
    · rename_i hread
      refine h.goto c _ (by simp) (fun _ => ?_)
      cases hlock : s.lock with
      | absent | corrupt => simp [hlock, Slot.readHolder] at hread
      | holds q =>
        have hq : q.nonce = (payload c).nonce := by simpa [hlock, Slot.readHolder] using hread
        rw [Known.eq_of_nonce hnonce hinit (h.lock_known q hlock) (.inr ⟨c, rfl⟩) hq]
    · exact h.goto_idle c _ (by simp)
  | releaseUnlink =>
    simp only [hph] at hnext
    cases hnext
    exact h.releaseUnlink hnonce halive hph
  | holding | busy error | released => simp [hph] at hnext

lemma Inv.next (hinit : ∀ p, initial = .holds p → ∀ c, p.nonce ≠ (payload c).nonce)
    (h : Inv payload initial s) {e : Event ι} (hcrash : NoClaimantCrash payload s e)
    (hok : breaksOnlyWhatItRead s e = true) (hnext : next modelDir payload s e = some s') : Inv payload initial s' := by
  cases e with
  | step c =>
    simp only [Lock.next] at hnext
    split at hnext
    · rename_i halive
      exact h.advance hnonce hinit halive hok hnext
    · cases hnext
  | release c =>
    simp only [Lock.next, callRelease] at hnext
    split at hnext
    · split at hnext
      · cases hnext; exact h.goto_idle c _ (by simp)
      · cases hnext; exact h.goto_idle c _ (by simp)
      · cases hnext
    · cases hnext
  | crash pid =>
    cases hnext
    exact h.crash pid hcrash

end

end

/-! ## The two branches -/

end ControlLibrary.Lock
