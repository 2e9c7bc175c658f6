import TiBackup.Model.LivePage

/-!
# TiBackup.Live.Fallback

**A page that is shown hears of news, and one that is left loads no dashboard.** The page drops
its web socket and the interval of `startPoll` in several places, and sockets and intervals that
it forgets go on on their own. In every run it forgets none: the only web socket that is not
closed or being closed is the current one, and the only interval of `startPoll` that runs is
`pollTimer`. While the application is shown there is one or the other, and when the page says
it is live, it is the socket (`page_listens`). After the session has ended no interval of
`startPoll` loads the dashboard and no socket is opened until the application is entered again.

The interval of an opened run log is another one and goes on (see `LivePage`).
-/

namespace TiBackup

open Lib Lib.Machine

/-- The socket is in use. -/
def PageSocket.Used (w : PageSocket) : Prop := w.readyState ≠ .CLOSED ∧ w.onclose = true

/-- The socket is closed, or nobody waits for that any more. -/
def PageSocket.Left (w : PageSocket) : Prop :=
  w.readyState = .CLOSED ∨ w.readyState = .CLOSING ∧ w.onclose = false

theorem PageSocket.left_close (w : PageSocket) : ({ w with onclose := false }.close).Left := by
  rw [PageSocket.close]
  dsimp only
  split
  · exact .inl rfl
  · exact .inr ⟨rfl, rfl⟩

theorem PageSocket.Used.close {w : PageSocket} (h : w.Used) : w.close.Used := by
  rw [PageSocket.close, if_neg h.1]
  exact ⟨ReadyState.noConfusion, h.2⟩

theorem PageSocket.Left.close {w : PageSocket} (h : w.Left) : w.close.Left := by
  rw [PageSocket.close]
  rcases h with hclosed | ⟨hclosing, hmute⟩
  · exact .inl (if_pos hclosed)
  · exact .inr ⟨if_neg (by simp [hclosing]), hmute⟩

namespace LivePage

variable {s : LivePage}

/-- The page knows the web socket in use and the interval of `startPoll` that runs. -/
structure Tidy (s : LivePage) : Prop where
  polls : s.intervals = s.pollTimer.toList
  made : ∀ k, s.sock = some k → k < s.sockets.length
  sockets : ∀ k w, s.sockets[k]? = some w → if s.sock = some k then w.Used else w.Left

/-- A page that is shown has a socket or is polling, and one that says it is live has a
socket. -/
structure Listens (s : LivePage) : Prop where
  hears : s.view = .app → s.sock.isSome ∨ s.pollTimer.isSome
  live : s.wsLive = true → s.sock.isSome ∧ s.pollTimer = none

/-! ### What the functions do to a page that forgot nothing -/

theorem stopPoll_eq (h : Tidy s) : s.stopPoll = { s with pollTimer := none, intervals := [] } := by
  have hpolls := h.polls
  rw [stopPoll]
  split
  · next t ht =>
    rw [ht] at hpolls
    simp [hpolls]
  · next hnone =>
    have hnil : s.intervals = [] := by rw [hpolls, hnone]; rfl
    rw [← hnone, ← hnil]

theorem startPoll_eq (h : Tidy s) : s.startPoll =
    if s.view = .app then
      { s with
        pollTimer := some s.nextInterval
        intervals := [s.nextInterval]
        nextInterval := s.nextInterval + 1 }
    else { s with pollTimer := none, intervals := [] } := by
  rw [startPoll, stopPoll_eq h]
  rfl

theorem closeSocket_eq (s : LivePage) :
    s.closeSocket = { s with sock := none, sockets := s.closeSocket.sockets } := by
  rw [closeSocket]
  split
  · rfl
  · next hnone => simp only [← hnone]

/-- A socket that was closed is left. -/
theorem left_closeSocket (h : Tidy s) (k : Nat) (w : PageSocket)
    (hw : s.closeSocket.sockets[k]? = some w) : w.Left := by
  rw [closeSocket] at hw
  split at hw
  · next k' hk' =>
    rw [List.getElem?_modify] at hw
    obtain ⟨w', hw', rfl⟩ := Option.map_eq_some_iff.mp hw
    split
    · exact w'.left_close
    · next hne =>
      have hleft := h.sockets k w' hw'
      rwa [if_neg fun heq => hne (Option.some.inj (hk'.symm.trans heq))] at hleft
  · next hnone =>
    have hleft := h.sockets k w hw
    rwa [if_neg (by rw [hnone]; exact Option.some_ne_none k |>.symm)] at hleft

/-! ### One event -/

theorem Tidy.stopPoll (h : Tidy s) : Tidy s.stopPoll := by
  rw [stopPoll_eq h]
  exact ⟨rfl, h.made, h.sockets⟩

theorem Tidy.closeSocket (h : Tidy s) : Tidy s.closeSocket := by
  have hleft := left_closeSocket h
  rw [closeSocket_eq]
  exact ⟨h.polls, fun k hk => (by cases hk), hleft⟩

/-- One of the sockets goes over to another state. -/
theorem Tidy.setSocket (h : Tidy s) {k : Nat} {w : PageSocket}
    (hw : if s.sock = some k then w.Used else w.Left) :
    Tidy { s with sockets := s.sockets.set k w } where
  polls := h.polls
  made k' hk' := by
    rw [List.length_set]
    exact h.made k' hk'
  sockets k' w' hw' := by
    rcases eq_or_ne k k' with rfl | hne
    · obtain ⟨hlt, rfl⟩ := List.getElem?_eq_some_iff.mp hw'
      rwa [List.getElem_set_self]
    · dsimp only at hw'
      rw [List.getElem?_set_ne hne] at hw'
      exact h.sockets k' w' hw'

/-- The invariant of the page. -/
def Sound (s : LivePage) : Prop := Tidy s ∧ Listens s

/-- The socket is gone, and the page polls if the application is shown. -/
theorem sound_onClose (h : Tidy s) : Sound s.onClose := by
  have hlost : Tidy { s with wsLive := false } := ⟨h.polls, h.made, h.sockets⟩
  rw [onClose, startPoll_eq hlost]
  split
  · exact ⟨⟨rfl, h.made, h.sockets⟩, fun _ => .inr rfl, fun hlive => by cases hlive⟩
  · next hview =>
    exact ⟨⟨rfl, h.made, h.sockets⟩, fun hshown => absurd hshown hview, fun hlive => by cases hlive⟩

/-- A new socket, when the others are left. -/
theorem Tidy.newSocket (h : Tidy s) (hleft : ∀ (k : Nat) (w : PageSocket),
    s.sockets[k]? = some w → w.Left) :
    Tidy { s with sock := some s.sockets.length, sockets := s.sockets ++ [{}] } where
  polls := h.polls
  made k hk := by
    obtain rfl := Option.some.inj hk
    simp
  sockets k w hw := by
    dsimp only at hw ⊢
    rcases Nat.lt_or_ge k s.sockets.length with hlt | hge
    · rw [List.getElem?_append_left hlt] at hw
      rw [if_neg fun heq => hlt.ne (Option.some.inj heq).symm]
      exact hleft k w hw
    · rw [List.getElem?_append_right hge, List.getElem?_singleton] at hw
      split at hw
      · next hzero =>
        obtain rfl := Option.some.inj hw
        rw [if_pos (congrArg some (by omega))]
        exact ⟨by decide, rfl⟩
      · cases hw

theorem Sound.enterApp (h : Sound s) (made : Bool) : Sound (s.enterApp made) := by
  have hshown : Tidy { s with view := .app } := ⟨h.1.polls, h.1.made, h.1.sockets⟩
  have hclosed := hshown.closeSocket
  cases made with
  | false =>
    have hpolls := sound_onClose hclosed
    exact ⟨⟨hpolls.1.polls, hpolls.1.made, hpolls.1.sockets⟩, hpolls.2.hears, hpolls.2.live⟩
  | true =>
    have hnew := hclosed.newSocket (left_closeSocket hshown)
    refine ⟨⟨hnew.polls, hnew.made, hnew.sockets⟩, fun _ => .inl rfl, fun hlive => ⟨rfl, ?_⟩⟩
    rw [LivePage.enterApp, connect, closeSocket_eq] at hlive ⊢
    exact (h.2.live hlive).2

/-- Nothing goes on for this page. -/
structure Quiet (s : LivePage) : Prop where
  tidy : Tidy s
  view : s.view ≠ .app
  sock : s.sock = none
  pollTimer : s.pollTimer = none
  wsLive : s.wsLive = false

theorem Quiet.sound (h : Quiet s) : Sound s :=
  ⟨h.tidy, fun hshown => absurd hshown h.view, fun hlive => by simp [h.wsLive] at hlive⟩

/-- The page drops its socket and its interval. -/
theorem Tidy.drop (h : Tidy s) {view : View} (hview : view ≠ .app) :
    Quiet { s.stopPoll.closeSocket with wsLive := false, view } := by
  have htidy := h.stopPoll.closeSocket
  refine ⟨⟨htidy.polls, htidy.made, htidy.sockets⟩, hview, ?_, ?_, rfl⟩
  · rw [closeSocket_eq]
  · rw [closeSocket_eq, stopPoll_eq h]

theorem quiet_doLogout (h : Tidy s) : Quiet s.doLogout := h.drop (by decide)

theorem quiet_unauthorized (h : Tidy s) : Quiet s.unauthorized := by
  refine h.drop ?_
  split
  · decide
  · next hview => exact hview

theorem Sound.opened (h : Sound s) (k : Nat) : Sound (s.opened k) := by
  rw [LivePage.opened]
  split
  · next w hw =>
    split
    · next hconnecting =>
      have hcurrent := h.1.sockets k w hw
      split at hcurrent
      · next hsock =>
        have hset : Tidy { s with sockets := s.sockets.set k { w with readyState := .OPEN } } :=
          h.1.setSocket (by rw [if_pos hsock]; exact ⟨by simp, hcurrent.2⟩)
        have hlive : Tidy { s with
            sockets := s.sockets.set k { w with readyState := .OPEN }
            wsLive := true } := ⟨hset.polls, hset.made, hset.sockets⟩
        rw [onOpen, stopPoll_eq hlive]
        have hsome : s.sock.isSome = true := by rw [hsock]; rfl
        exact ⟨⟨rfl, hlive.made, hlive.sockets⟩, fun _ => .inl hsome, fun _ => ⟨hsome, rfl⟩⟩
      · simp [PageSocket.Left, hconnecting] at hcurrent
    · exact h
  · exact h

theorem Sound.error (h : Sound s) (k : Nat) : Sound (s.error k) := by
  refine ⟨⟨h.1.polls, fun k' hk' => ?_, fun k' w' hw' => ?_⟩, h.2.hears, h.2.live⟩
  · rw [LivePage.error, List.length_modify]
    exact h.1.made k' hk'
  · rw [LivePage.error, List.getElem?_modify] at hw'
    obtain ⟨w, hw, rfl⟩ := Option.map_eq_some_iff.mp hw'
    have hold := h.1.sockets k' w hw
    split
    · next hsock =>
      rw [if_pos (show s.sock = some k' from hsock)] at hold
      split
      · exact hold.close
      · exact hold
    · next hsock =>
      rw [if_neg (show s.sock ≠ some k' from hsock)] at hold
      split
      · exact hold.close
      · exact hold

theorem Sound.closed (h : Sound s) (k : Nat) : Sound (s.closed k) := by
  rw [LivePage.closed]
  split
  · next w hw =>
    split
    · exact h
    · next hopen =>
      have hcurrent := h.1.sockets k w hw
      dsimp only
      split
      · next honclose =>
        -- Its `onclose` is called, so it is the current one, and the others are left.
        have hsock : s.sock = some k := by
          by_contra hother
          rw [if_neg hother] at hcurrent
          rcases hcurrent with hclosed | ⟨-, hmute⟩
          · exact hopen hclosed
          · simp [hmute] at honclose
        refine sound_onClose ⟨h.1.polls, fun k' hk' => (by cases hk'), fun k' w' hw' => ?_⟩
        rcases eq_or_ne k k' with rfl | hne
        · obtain ⟨hlt, rfl⟩ := List.getElem?_eq_some_iff.mp hw'
          rw [List.getElem_set_self]
          exact .inl rfl
        · dsimp only at hw'
          rw [List.getElem?_set_ne hne] at hw'
          have hleft := h.1.sockets k' w' hw'
          rwa [hsock, if_neg fun heq => hne (Option.some.inj heq)] at hleft
      · next honclose =>
        have hother : s.sock ≠ some k := by
          intro hsock
          rw [if_pos hsock] at hcurrent
          exact honclose hcurrent.2
        have hset := h.1.setSocket (k := k) (w := { w with readyState := .CLOSED })
          (by rw [if_neg hother]; exact .inl rfl)
        exact ⟨hset, h.2.hears, h.2.live⟩
  · exact h

/-- **One event.** -/
theorem Sound.step (h : Sound s) (e : LivePageEvent) : Sound (s.step e) := by
  cases e with
  | enterApp made => exact h.enterApp made
  | showForm setupRequired =>
    refine ⟨⟨h.1.polls, h.1.made, h.1.sockets⟩, fun hview => ?_, h.2.live⟩
    cases setupRequired <;> cases hview
  | doLogout => exact (quiet_doLogout h.1).sound
  | unauthorized => exact (quiet_unauthorized h.1).sound
  | go page => exact ⟨⟨h.1.polls, h.1.made, h.1.sockets⟩, h.2.hears, h.2.live⟩
  | opened k => exact h.opened k
  | error k => exact h.error k
  | closed k => exact h.closed k
  | tick t => exact h

/-! ### Runs -/

theorem sound_run (es : List LivePageEvent) : Sound (machine.run {} es) :=
  invariant_run (P := fun _ _ => True) (fun _ e h _ => h.step e)
    ⟨⟨rfl, fun k hk => (by cases hk), fun k w hw => (by cases hw)⟩,
      fun hview => (by cases hview), fun hlive => (by cases hlive)⟩
    (along_of_forall_mem (P := fun _ => True) (fun _ _ => trivial) _)

/-- The session has ended for the page. -/
def endsSession : LivePageEvent → Bool
  | .doLogout | .unauthorized => true
  | _ => false

/-- The application is entered. -/
def entersApp : LivePageEvent → Bool
  | .enterApp _ => true
  | _ => false

theorem quiet_of_endsSession (h : Tidy s) {e : LivePageEvent} (he : endsSession e = true) :
    Quiet (s.step e) := by
  cases e with
  | doLogout => exact quiet_doLogout h
  | unauthorized => exact quiet_unauthorized h
  | _ => cases he

theorem Quiet.left (h : Quiet s) {k : Nat} {w : PageSocket} (hw : s.sockets[k]? = some w) :
    w.Left := by
  have hleft := h.tidy.sockets k w hw
  rwa [h.sock, if_neg (Option.some_ne_none k).symm] at hleft

/-- A quiet page stays quiet. -/
theorem Quiet.step (h : Quiet s) {e : LivePageEvent} (he : entersApp e = false) :
    Quiet (s.step e) := by
  have htidy : Tidy (s.step e) := (h.sound.step e).1
  cases e with
  | enterApp made => cases he
  | showForm setupRequired =>
    refine ⟨htidy, fun hview => ?_, h.sock, h.pollTimer, h.wsLive⟩
    cases setupRequired <;> cases hview
  | doLogout => exact quiet_doLogout h.tidy
  | unauthorized => exact quiet_unauthorized h.tidy
  | go page => exact ⟨htidy, h.view, h.sock, h.pollTimer, h.wsLive⟩
  | opened k =>
    rw [LivePage.step, LivePage.opened]
    split
    · next w hw =>
      split
      · next hconnecting =>
        have hleft := h.left hw
        simp [PageSocket.Left, hconnecting] at hleft
      · exact h
    · exact h
  | error k => exact ⟨htidy, h.view, h.sock, h.pollTimer, h.wsLive⟩
  | closed k =>
    rw [LivePage.step, LivePage.closed] at htidy ⊢
    split
    · next w hw =>
      rw [hw] at htidy
      dsimp only at htidy ⊢
      split
      · exact h
      · next hopen =>
        rw [if_neg hopen] at htidy
        split
        · next honclose =>
          rcases h.left hw with hclosed | ⟨-, hmute⟩
          · exact absurd hclosed hopen
          · simp [hmute] at honclose
        · next honclose =>
          rw [if_neg honclose] at htidy
          exact ⟨htidy, h.view, h.sock, h.pollTimer, h.wsLive⟩
    · exact h
  | tick t => exact h

theorem Quiet.loads (h : Quiet s) (e : LivePageEvent) : s.loads e = false := by
  cases e with
  | tick t =>
    have hnone : s.intervals = [] := by rw [h.tidy.polls, h.pollTimer]; rfl
    rw [LivePage.loads, hnone]
    rfl
  | _ => rfl

theorem quiet_run (h : Quiet s) {es : List LivePageEvent} (hes : ∀ e ∈ es, entersApp e = false) :
    Quiet (machine.run s es) ∧ true ∉ machine.outputs s es := by
  induction es generalizing s with
  | nil => exact ⟨h, List.not_mem_nil⟩
  | cons e es ih =>
    obtain ⟨hquiet, houts⟩ := ih (h.step (hes e List.mem_cons_self))
      fun e' he' => hes e' (List.mem_cons_of_mem e he')
    refine ⟨hquiet, fun hmem => ?_⟩
    rcases List.mem_cons.mp hmem with hload | hmem
    · exact absurd (hload.trans (h.loads e)) (by decide)
    · exact houts hmem

/-- **A page that is shown listens, and one that is left loads no dashboard.** In every state
of every run there is at most one web socket that is not closed or being closed, the current
one, and of the intervals of `startPoll` at most one runs, `pollTimer`. While the application
is shown there is a socket or such an interval, and when the page says it is live, there is a
socket and no such interval. When the session has ended, there is neither until the application
is entered again, by a sign-in or by a late status answer of `init`, and none of them loads the
dashboard. -/
theorem page_listens (es : List LivePageEvent) :
    let s := machine.run {} es
    (∀ k w, s.sockets[k]? = some w → w.readyState = .CONNECTING ∨ w.readyState = .OPEN →
      s.sock = some k) ∧
    s.intervals = s.pollTimer.toList ∧
    (s.view = .app → s.sock.isSome ∨ s.pollTimer.isSome) ∧
    (s.wsLive = true → s.sock.isSome ∧ s.pollTimer = none) ∧
    ∀ pre e post, es = pre ++ e :: post → endsSession e = true →
      (∀ e' ∈ post, entersApp e' = false) →
      s.sock = none ∧ s.intervals = [] ∧
        true ∉ machine.outputs (machine.run {} (pre ++ [e])) post := by
  intro s
  obtain ⟨htidy, hlistens⟩ := sound_run es
  refine ⟨fun k w hw hopen => ?_, htidy.polls, hlistens.hears, hlistens.live, ?_⟩
  · by_contra hother
    have hleft := htidy.sockets k w hw
    rw [if_neg hother] at hleft
    rcases hopen with hopen | hopen <;> simp [PageSocket.Left, hopen] at hleft
  · rintro pre e post rfl he hpost
    have hquiet : Quiet (machine.run {} (pre ++ [e])) := by
      rw [run_append]
      exact quiet_of_endsSession (sound_run pre).1 he
    obtain ⟨hend, houts⟩ := quiet_run hquiet hpost
    rw [← run_append, List.append_assoc, List.singleton_append] at hend
    refine ⟨hend.sock, ?_, houts⟩
    rw [htidy.polls, hend.pollTimer]
    rfl

end LivePage

end TiBackup
