import Veilroom.Tor.Manager

/-!
What the program says to its Tor in a session, from the authentication to the shutdown, and what it
makes of the replies.
-/
namespace Veilroom
namespace Tor

/-- The replies of Tor to commands put to it after others. -/
def answers (tor : List Bytes → Answer) (asked : List Bytes) : List Bytes → List Reply
  | [] => []
  | command :: commands =>
    (tor (asked ++ [command])).reply :: answers tor (asked ++ [command]) commands

/-- Exchanges that got replies, but for the last one at most. -/
structure Replied (c : ControlClient) (es : List Exchange) (replies : List Reply)
    (last : Option (Option (Except CommandError Reply))) : Prop where
  outputs : Machine.outputs ControlClient.exchange es c =
    replies.map (fun reply => some (.ok reply)) ++ last.toList
  failed : ∀ reply, last ≠ some (some (.ok reply))

section
variable {tor : List Bytes → Answer} {c : ControlClient} {d : Dialogue} {e : Exchange}
variable {es es' : List Exchange} {replies replies' : List Reply}
variable {last : Option (Option (Except CommandError Reply))}

theorem Replied.nil (c : ControlClient) : Replied c [] [] none := ⟨rfl, nofun⟩

theorem Replied.append (h : Replied c es replies none)
    (h' : Replied (Machine.after ControlClient.exchange es c) es' replies' last) :
    Replied c (es ++ es') (replies ++ replies') last where
  outputs := by
    rw [Machine.outputs_append, h.outputs, h'.outputs]
    simp
  failed := h'.failed

theorem Replied.single {reply : Reply} (h : (c.exchange e).2 = some (.ok reply)) :
    Replied c [e] [reply] none where
  outputs := by
    rw [Machine.outputs, h]
    rfl
  failed := nofun

theorem Replied.none {output : Option (Except CommandError Reply)}
    (h : (c.exchange e).2 = output) (hfailed : ∀ reply, output ≠ some (.ok reply)) :
    Replied c [e] [] (some output) where
  outputs := by
    rw [Machine.outputs, h]
    rfl
  failed reply heq := hfailed reply (Option.some.inj heq)

/-- In a dialogue the replies are the answers of Tor to the commands. -/
theorem replies_answers (es : List Exchange) (replies : List Reply) {d : Dialogue}
    (h : Machine.outputs (Dialogue.exchange tor) es d =
      replies.map (fun reply => some (.ok reply))) :
    replies = answers tor d.asked (es.map Exchange.command) := by
  induction es generalizing replies d with
  | nil => exact List.map_eq_nil_iff.mp h.symm
  | cons e es ih =>
      cases replies with
      | nil => cases h
      | cons reply replies =>
          rcases hstep : d.exchange tor e with ⟨d', output⟩
          rw [Machine.outputs, hstep, List.map_cons] at h
          obtain ⟨rfl, hrest⟩ := List.cons.inj h
          obtain ⟨rfl, rfl⟩ := exchange_ok hstep
          rw [List.map_cons, answers, ih replies hrest]

theorem answers_append (tor : List Bytes → Answer) (asked commands more : List Bytes) :
    answers tor asked (commands ++ more) =
      answers tor asked commands ++ answers tor (asked ++ commands) more := by
  induction commands generalizing asked with
  | nil => simp [answers]
  | cons command commands ih => simp [answers, ih]

/-- The replies of Tor are its answers to the first of the commands. -/
theorem Replied.answers (h : Replied {} es replies last)
    (hoffered : Machine.Offered (Dialogue.exchange tor) (Dialogue.Honest tor) es {}) :
    replies <+: Tor.answers tor [] (es.map Exchange.command) := by
  have hlength := congrArg List.length h.outputs
  rw [Machine.length_outputs, List.length_append, List.length_map] at hlength
  obtain ⟨first, rest, rfl, hfirst⟩ : ∃ first rest, es = first ++ rest ∧
      first.length = replies.length :=
    ⟨_, _, (List.take_append_drop replies.length es).symm, List.length_take_of_le (by omega)⟩
  have houtputs := h.outputs
  rw [Machine.outputs_append] at houtputs
  obtain ⟨hreplies, -⟩ := List.append_inj houtputs (by
    rw [Machine.length_outputs, List.length_map, hfirst])
  obtain ⟨hmeant, -⟩ := (attuned_simulates tor).run first Attuned.initial
    (Machine.offered_append.mp hoffered).1 (by simp [hreplies])
  rw [List.map_append, answers_append,
    replies_answers first replies (hmeant.symm.trans hreplies)]
  exact List.prefix_append _ _

end

/-! ### The manager -/

/-- The manager after exchanges on its connection. -/
def TorManager.after (m : TorManager) (es : List Exchange) : TorManager :=
  { m with
    control := m.control.map (Machine.after ControlClient.exchange es)
    issued := m.issued ++ es }

section
variable {m : TorManager} {c : ControlClient} {r : Response} {command : Bytes}
variable {es es' : List Exchange}

@[simp] theorem TorManager.after_nil (m : TorManager) : m.after [] = m := by
  cases m with
  | mk chatSocket control onion issued => cases control <;> simp [after, Machine.after]

@[simp] theorem TorManager.after_after (m : TorManager) (es es' : List Exchange) :
    (m.after es).after es' = m.after (es ++ es') := by
  cases m with
  | mk chatSocket control onion issued =>
      cases control <;> simp [after, Machine.after_append]

@[simp] theorem TorManager.issued_after (m : TorManager) (es : List Exchange) :
    (m.after es).issued = m.issued ++ es := rfl

@[simp] theorem TorManager.onion_after (m : TorManager) (es : List Exchange) :
    (m.after es).onion = m.onion := rfl

@[simp] theorem TorManager.chatSocket_after (m : TorManager) (es : List Exchange) :
    (m.after es).chatSocket = m.chatSocket := rfl

theorem TorManager.control_after (hcontrol : m.control = some c) (es : List Exchange) :
    (m.after es).control = some (Machine.after ControlClient.exchange es c) := by
  rw [after, hcontrol]
  rfl

/-- A command is one exchange, and fails if it gets no reply. -/
theorem TorManager.command_spec (hcontrol : m.control = some c) (command : Bytes) (r : Response) :
    (m.command command r).1 = m.after [⟨command, r.arrives, some r.ending⟩] ∧
      ((∃ reply, (m.command command r).2 = .ok reply ∧
          Replied c [⟨command, r.arrives, some r.ending⟩] [reply] none) ∨
        ∃ error failure, (m.command command r).2 = .error error ∧
          Replied c [⟨command, r.arrives, some r.ending⟩] [] (some failure)) := by
  rw [TorManager.command, hcontrol]
  dsimp only
  have hexchange : (c.exchange ⟨command, r.arrives, some r.ending⟩) =
      ((({ c with unread := c.unread ++ r.arrives } : ControlClient).command command r.ending).1,
        some (({ c with unread := c.unread ++ r.arrives } : ControlClient).command command
          r.ending).2) := rfl
  generalize ({ c with unread := c.unread ++ r.arrives } : ControlClient).command command r.ending =
    out at hexchange ⊢
  have hafter : (m.after [⟨command, r.arrives, some r.ending⟩]) =
      { m with
        control := some out.1
        issued := m.issued ++ [⟨command, r.arrives, some r.ending⟩] } := by
    rw [TorManager.after, hcontrol, Option.map_some, Machine.after, hexchange]
    rfl
  obtain ⟨c', error | reply⟩ := out
  · exact ⟨hafter.symm, .inr ⟨_, _, rfl, .none (congrArg Prod.snd hexchange) (by simp)⟩⟩
  · exact ⟨hafter.symm, .inl ⟨_, rfl, .single (congrArg Prod.snd hexchange)⟩⟩

/-- What came of polling: the polls and the replies to them, what was reported, and the result. -/
structure Polled (m : TorManager) (c : ControlClient) (es : List Exchange) (replies : List Reply)
    (out : TorManager × List Nat × Option (Except TorError Unit)) : Prop where
  manager : out.1 = m.after es
  commands : es.map Exchange.command = List.replicate es.length getinfo
  replied : ∃ last, Replied c es replies last ∧ (out.2.2 = some (.ok ()) → last = none)
  reported : out.2.1 = replies.filterMap bootstrapProgress
  complete : out.2.2 = some (.ok ()) ↔ 100 ∈ out.2.1
  growing : 100 ∉ out.2.1.dropLast

theorem Polled.unasked {m : TorManager} {result : Option (Except TorError Unit)}
    (hresult : result ≠ some (.ok ())) : Polled m c [] [] (m, [], result) where
  manager := m.after_nil.symm
  commands := rfl
  replied := ⟨none, .nil c, fun h => absurd h hresult⟩
  reported := rfl
  complete := iff_of_false hresult List.not_mem_nil
  growing := List.not_mem_nil

theorem waitForBootstrap_spec (hcontrol : m.control = some c) (polls : List TorManager.Poll) :
    ∃ es replies, Polled m c es replies (m.waitForBootstrap polls) := by
  induction polls generalizing m c with
  | nil => exact ⟨[], [], .unasked nofun⟩
  | cons poll polls ih =>
      rw [TorManager.waitForBootstrap]
      cases poll.exited with
      | error error => exact ⟨[], [], .unasked nofun⟩
      | ok exited =>
          cases exited with
          | true => exact ⟨[], [], .unasked nofun⟩
          | false =>
              rw [hcontrol]
              dsimp only
              generalize he : (⟨getinfo, poll.arrives, poll.ending⟩ : Exchange) = e
              have hcommand : e.command = getinfo := by rw [← he]
              have hafter : ({ m with
                  control := some (c.exchange e).1
                  issued := m.issued ++ [e] } : TorManager) = m.after [e] := by
                rw [TorManager.after, hcontrol]
                rfl
              rw [hafter]
              have hcommands : [e].map Exchange.command = List.replicate 1 getinfo := by
                rw [List.map_singleton, hcommand]
                rfl
              rcases houtput : (c.exchange e).2 with _ | error | reply
              · exact ⟨[e], [], rfl, hcommands, ⟨_, .none houtput nofun, nofun⟩, rfl,
                  iff_of_false nofun List.not_mem_nil, List.not_mem_nil⟩
              · exact ⟨[e], [], rfl, hcommands, ⟨_, .none houtput nofun, nofun⟩, rfl,
                  iff_of_false nofun List.not_mem_nil, List.not_mem_nil⟩
              · dsimp only
                have hreplied := Replied.single houtput
                have hreported : (bootstrapProgress reply).toList =
                    [reply].filterMap bootstrapProgress := by
                  cases hprogress : bootstrapProgress reply <;> simp [hprogress]
                by_cases hcomplete : bootstrapProgress reply = some 100
                · rw [if_pos hcomplete, hreported]
                  refine ⟨[e], [reply], rfl, hcommands, ⟨_, hreplied, fun _ => rfl⟩, rfl,
                    ?_, ?_⟩ <;>
                    simp [hcomplete]
                rw [if_neg hcomplete]
                have hnot : 100 ∉ (bootstrapProgress reply).toList := by simpa using hcomplete
                by_cases hlate : poll.late = true
                · rw [if_pos hlate]
                  exact ⟨[e], [reply], rfl, hcommands, ⟨_, hreplied, nofun⟩, hreported,
                    iff_of_false nofun hnot, fun hmem => hnot (List.dropLast_subset _ hmem)⟩
                · rw [if_neg hlate]
                  obtain ⟨es, replies, hpolled⟩ := ih (TorManager.control_after hcontrol [e])
                  obtain ⟨last, hmore, hlast⟩ := hpolled.replied
                  refine ⟨[e] ++ es, [reply] ++ replies, ?_, ?_,
                    ⟨last, hreplied.append hmore, hlast⟩, ?_, ?_, ?_⟩
                  · exact hpolled.manager.trans (m.after_after [e] es)
                  · rw [List.map_append, hcommands, hpolled.commands, List.length_append,
                      List.replicate_add]
                    rfl
                  · rw [List.filterMap_append, ← hreported, ← hpolled.reported]
                  · rw [List.mem_append, or_iff_right hnot]
                    exact hpolled.complete
                  · intro hmem
                    have hgrowing := hpolled.growing
                    generalize ((m.after [e]).waitForBootstrap polls).2.1 =
                      reported at hmem hgrowing
                    cases reported with
                    | nil => exact hnot (List.dropLast_subset _ (by simpa using hmem))
                    | cons percent reported =>
                        rw [List.dropLast_append_of_ne_nil (List.cons_ne_nil _ _),
                          List.mem_append] at hmem
                        exact hmem.elim hnot hgrowing

theorem Replied.length {replies : List Reply} {last : Option (Option (Except CommandError Reply))}
    (h : Replied c es replies last) : replies.length + last.toList.length = es.length := by
  have hlength := congrArg List.length h.outputs
  rw [Machine.length_outputs] at hlength
  simpa using hlength.symm

/-! ### The start -/

theorem readCookieHex_ok {effectiveUid : Option Nat} {reads : List CookieRead} {cookieHex : Bytes}
    (h : readCookieHex effectiveUid reads = some (.ok cookieHex)) :
    ∃ cookie metadata, .file cookie (some metadata) ∈ reads ∧ cookie.length = 32 ∧
      effectiveUid = some metadata.uid ∧ metadata.mode &&& 0o077 = 0 ∧ cookieHex = hex cookie := by
  induction reads with
  | nil => cases h
  | cons read reads ih =>
      cases read with
      | missing late =>
          rw [readCookieHex] at h
          split at h
          · cases h
          · obtain ⟨cookie, metadata, hmem, hfile⟩ := ih h
            exact ⟨cookie, metadata, .tail _ hmem, hfile⟩
      | failed => cases h
      | file cookie metadata =>
          unfold readCookieHex at h
          split at h
          · cases h
          · rename_i hlength
            split at h
            · cases h
            · cases h
            · rename_i metadata uid
              split at h
              · cases h
              · rename_i huid
                split at h
                · cases h
                · rename_i hmode
                  cases h
                  exact ⟨cookie, metadata, .head _, not_not.mp hlength,
                    congrArg some (not_not.mp huid).symm, not_not.mp hmode, rfl⟩

/-- What is said before anything else: nothing yet, or the bytes of a cookie that only the user of
the program can have put there. -/
inductive Opening (s : TorManager.Startup) : List Bytes → Prop
  | unsaid : Opening s []
  | cookie {cookie metadata} : .file cookie (some metadata) ∈ s.cookie → cookie.length = 32 →
      s.effectiveUid = some metadata.uid → metadata.mode &&& 0o077 = 0 →
      Opening s [authenticateCommand (hex cookie)]

theorem authenticate_spec (hcontrol : m.control = some c) (cookieHex : Bytes) (r : Response) :
    ∃ e replies last, (m.authenticate cookieHex r).1 = m.after [e] ∧
      e.command = authenticateCommand cookieHex ∧ Replied c [e] replies last ∧
        ((m.authenticate cookieHex r).2 = .ok () → last = none) := by
  obtain ⟨hafter, hreply⟩ := TorManager.command_spec hcontrol (authenticateCommand cookieHex) r
  rw [TorManager.authenticate]
  rcases hcommand : m.command (authenticateCommand cookieHex) r with ⟨m', error | reply⟩
  · rw [hcommand] at hafter hreply
    obtain ⟨_, hok, -⟩ | ⟨_, failure, -, hreplied⟩ := hreply
    · cases hok
    · exact ⟨_, [], _, hafter, rfl, hreplied, nofun⟩
  · rw [hcommand] at hafter hreply
    obtain ⟨reply, -, hreplied⟩ | ⟨_, _, herror, -⟩ := hreply
    · exact ⟨_, [reply], _, hafter, rfl, hreplied, fun _ => rfl⟩
    · cases herror

end

/-- What came of the start. -/
structure Started (chatSocket : Bytes) (s : TorManager.Startup) (opening : List Bytes) (n : Nat)
    (es : List Exchange) (replies : List Reply)
    (out : TorManager × List Nat × Option (Except TorError Unit)) : Prop where
  connected : s.connected = .ok () →
    out.1 = ({ chatSocket, control := some {} } : TorManager).after es
  unconnected : s.connected ≠ .ok () → out.1 = { chatSocket } ∧ es = []
  opens : Opening s opening
  commands : es.map Exchange.command = opening ++ List.replicate n getinfo
  unopened : opening = [] → es = []
  replied : ∃ last, Replied {} es replies last ∧ (out.2.2 = some (.ok ()) → last = none)
  reported : out.2.1 = (replies.drop 1).filterMap bootstrapProgress
  complete : out.2.2 = some (.ok ()) ↔ 100 ∈ out.2.1
  growing : 100 ∉ out.2.1.dropLast

theorem start_spec (chatSocket : Bytes) (s : TorManager.Startup) :
    ∃ opening n es replies,
      Started chatSocket s opening n es replies (TorManager.start { chatSocket } s) := by
  rw [TorManager.start]
  rcases hconnected : s.connected with error | _
  · exact ⟨[], 0, [], [], fun h => (nomatch hconnected.symm.trans h),
      fun _ => ⟨rfl, rfl⟩, .unsaid, rfl, fun _ => rfl,
      ⟨none, .nil _, nofun⟩, rfl, iff_of_false nofun List.not_mem_nil, List.not_mem_nil⟩
  dsimp only
  have hcontrol : ({ chatSocket, control := some {} } : TorManager).control = some {} := rfl
  generalize hm : ({ chatSocket, control := some {} } : TorManager) = m at hcontrol ⊢
  have hunsaid : ∀ {result}, result ≠ some (.ok ()) →
      ∃ opening n es replies, Started chatSocket s opening n es replies (m, [], result) := by
    intro result hresult
    refine ⟨[], 0, [], [], fun _ => ?_, fun h => absurd hconnected h, .unsaid, rfl, fun _ => rfl,
      ⟨none, .nil _, fun h => absurd h hresult⟩, rfl, iff_of_false hresult List.not_mem_nil,
      List.not_mem_nil⟩
    rw [hm, TorManager.after_nil]
  rcases hcookie : readCookieHex s.effectiveUid s.cookie with _ | error | cookieHex
  · exact hunsaid nofun
  · exact hunsaid nofun
  dsimp only
  obtain ⟨cookie, metadata, hmem, hlength, huid, hmode, rfl⟩ := readCookieHex_ok hcookie
  have hopening : Opening s _ := .cookie hmem hlength huid hmode
  obtain ⟨e, replies, last, hafter, hcommand, hreplied, hlast⟩ :=
    authenticate_spec hcontrol (hex cookie) s.authentication
  have hfirst : [e].map Exchange.command = [authenticateCommand (hex cookie)] := by
    rw [List.map_singleton, hcommand]
  rcases hauthenticated : m.authenticate (hex cookie) s.authentication with ⟨m', error | _⟩
  · rw [hauthenticated] at hafter
    refine ⟨_, 0, [e], replies, fun _ => ?_, fun h => absurd hconnected h, hopening, ?_, nofun,
      ⟨last, hreplied, nofun⟩, ?_, iff_of_false nofun List.not_mem_nil, List.not_mem_nil⟩
    · rw [hm]
      exact hafter
    · rw [hfirst]
      rfl
    · have hlength := hreplied.length
      rw [List.length_singleton] at hlength
      rw [List.drop_eq_nil_of_le (by omega)]
      rfl
  · rw [hauthenticated] at hafter hlast
    obtain rfl := hlast rfl
    dsimp only at hafter ⊢
    rw [hafter]
    obtain ⟨es, more, hpolled⟩ :=
      waitForBootstrap_spec (TorManager.control_after hcontrol [e]) s.polls
    obtain ⟨last, hmore, hlast⟩ := hpolled.replied
    have hone : replies.length = 1 := by simpa using hreplied.length
    refine ⟨_, es.length, [e] ++ es, replies ++ more, fun _ => ?_, fun h => absurd hconnected h,
      hopening, ?_, nofun, ⟨last, hreplied.append hmore, hlast⟩, ?_, hpolled.complete,
      hpolled.growing⟩
    · rw [hm]
      exact hpolled.manager.trans (m.after_after [e] es)
    · rw [List.map_append, hfirst, hpolled.commands]
    · rw [← hone, List.drop_left]
      exact hpolled.reported

/-! ### The onion service and the shutdown -/

theorem serviceOf_eq_ok {C : Uri.Codecs} {virtualPort : Nat} {command : Bytes} {reply : Reply}
    {service : OnionService} (h : serviceOf C virtualPort command reply = .ok service) :
    ∃ serviceId, service = ⟨serviceId ++ utf8 ".onion", virtualPort⟩ ∧
      isValidOnionAddress C (serviceId ++ utf8 ".onion") = true := by
  unfold serviceOf at h
  split at h
  · cases h
  split at h
  · cases h
  split at h
  · cases h
  dsimp only at h
  split at h
  · cases h
  · rename_i hvalid
    cases h
    exact ⟨_, rfl, not_not.mp hvalid⟩

/-- An onion service has an address that makes invitations. -/
theorem serviceOf_ok {C : Uri.Codecs} {virtualPort : Nat} {command : Bytes} {reply : Reply}
    {service : OnionService} (h : serviceOf C virtualPort command reply = .ok service) :
    service.virtualPort = virtualPort ∧ ∃ text, Uri.bytes text = service.onionAddress ∧
      Uri.validateOnionAddress C text = .ok () := by
  obtain ⟨serviceId, rfl, hvalid⟩ := serviceOf_eq_ok h
  exact ⟨rfl, isValidOnionAddress_iff.mp hvalid⟩

section
variable {m : TorManager} {c : ControlClient}

theorem addOnion_spec {C : Uri.Codecs} {virtualPort : Nat} (hport : virtualPort ≠ 0)
    (hcontrol : m.control = some c) (honion : m.onion = none) (r : Response) :
    ∃ e replies last,
      (m.addOnion C virtualPort r).1 =
          { m.after [e] with onion := (m.addOnion C virtualPort r).2.toOption } ∧
        e.command = addOnionCommand m.chatSocket virtualPort ∧ Replied c [e] replies last ∧
          ∀ service, (m.addOnion C virtualPort r).2 = .ok service →
            ∃ reply, replies = [reply] ∧
              serviceOf C virtualPort (addOnionCommand m.chatSocket virtualPort) reply =
                .ok service := by
  obtain ⟨hafter, hreply⟩ :=
    TorManager.command_spec hcontrol (addOnionCommand m.chatSocket virtualPort) r
  have hnone : ∀ {e : Exchange}, m.after [e] = { m.after [e] with onion := none } := by
    intro e
    rw [← honion]
    rfl
  rw [TorManager.addOnion, if_neg hport]
  dsimp only
  rcases hcommand : m.command (addOnionCommand m.chatSocket virtualPort) r with ⟨m', error | reply⟩
  · rw [hcommand] at hafter hreply
    obtain ⟨_, hok, -⟩ | ⟨_, failure, -, hreplied⟩ := hreply
    · cases hok
    · exact ⟨_, [], _, hafter.trans hnone, rfl, hreplied, nofun⟩
  · rw [hcommand] at hafter hreply
    obtain ⟨reply', hok, hreplied⟩ | ⟨_, _, herror, -⟩ := hreply
    · cases hok
      dsimp only at hafter ⊢
      rw [hafter]
      rcases hservice : serviceOf C virtualPort
        (addOnionCommand m.chatSocket virtualPort) reply with
        error | service
      · exact ⟨_, [reply], _, hnone, rfl, hreplied, nofun⟩
      · refine ⟨_, [reply], _, rfl, rfl, hreplied, ?_⟩
        rintro _ ⟨⟩
        exact ⟨reply, rfl, hservice⟩
    · cases herror

/-- The last commands of a manager that has a connection. -/
def farewell (onion : Option OnionService) : List Bytes :=
  onion.toList.map delOnionCommand ++ [signalShutdown]

theorem goodbye_spec (hcontrol : m.control = some c) (deletion signal : Response) :
    ∃ es, m.goodbye deletion signal = m.after es ∧ es.map Exchange.command = farewell m.onion := by
  rw [TorManager.goodbye, hcontrol]
  cases honion : m.onion with
  | none =>
      dsimp only
      rw [hcontrol]
      dsimp only
      rw [(TorManager.command_spec hcontrol signalShutdown signal).1]
      exact ⟨_, rfl, rfl⟩
  | some onion =>
      dsimp only
      rw [(TorManager.command_spec hcontrol (delOnionCommand onion) deletion).1,
        TorManager.control_after hcontrol]
      dsimp only
      rw [(TorManager.command_spec (TorManager.control_after hcontrol _) signalShutdown signal).1,
        TorManager.after_after]
      exact ⟨_, rfl, rfl⟩

theorem goodbye_unconnected (hcontrol : m.control = none) (deletion signal : Response) :
    m.goodbye deletion signal = m := by
  rw [TorManager.goodbye, hcontrol]
  dsimp only
  rw [hcontrol]

end

/-! ### Sessions -/

/-- What a session says to its Tor and makes of the replies: the cookie, `n` polls of the bootstrap
and the onion service of a host. -/
structure TorSession.Sound (C : Uri.Codecs) (hosting : Bool) (chatSocket : Bytes)
    (s : Circumstances) (o : TorSession) (opening : List Bytes) (n : Nat) (replies : List Reply) :
    Prop where
  opens : Opening s.startup opening
  unopened : opening = [] → o.manager.issued = []
  said : o.manager.issued.map Exchange.command = opening ++ List.replicate n getinfo ++
    if o.onion.isSome then [addOnionCommand chatSocket virtualPort] else []
  replied : ∃ last, Replied {} o.manager.issued replies last
  /-- The progress shown is what the replies to the polls say, and nothing follows 100. -/
  reported : o.reported = ((replies.drop 1).take n).filterMap bootstrapProgress
  percent : ∀ percent ∈ o.reported, percent ≤ 100
  growing : 100 ∉ o.reported.dropLast
  started : o.started = some (.ok ()) ↔ 100 ∈ o.reported
  /-- A host asks for its onion service once the bootstrap is complete, and nobody else does. -/
  asked : o.onion.isSome ↔ hosting = true ∧ 100 ∈ o.reported
  service : ∀ service, o.onion = some (.ok service) → ∃ reply, replies[n + 1]? = some reply ∧
    serviceOf C virtualPort (addOnionCommand chatSocket virtualPort) reply = .ok service
  /-- However the session ends, the manager asks for the service to be deleted and Tor to go. -/
  farewell : o.parting.issued.map Exchange.command = o.manager.issued.map Exchange.command ++
    if o.started.isSome ∧ s.startup.connected = .ok () then
      farewell (o.onion.bind Except.toOption)
    else []
  /-- All of this was said on one connection. -/
  client : o.parting.control =
    if s.startup.connected = .ok () then
      some (Machine.after ControlClient.exchange o.parting.issued {})
    else none
  closed : o.started.isSome → o.closed = { o.parting with control := none, onion := none }

theorem bootstrapProgress_le {reply : Reply} {percent : Nat}
    (h : bootstrapProgress reply = some percent) : percent ≤ 100 := by
  rw [bootstrapProgress, Option.filter_eq_some_iff] at h
  exact of_decide_eq_true h.2

theorem Opening.length_le {s : TorManager.Startup} {opening : List Bytes} (h : Opening s opening) :
    opening.length ≤ 1 := by
  cases h with
  | unsaid => exact Nat.zero_le 1
  | cookie => exact Nat.le_refl 1

section
variable {chatSocket : Bytes} {s : Circumstances} {opening : List Bytes} {n : Nat}
variable {es : List Exchange} {replies : List Reply} {m closed : TorManager} {reported : List Nat}
variable {result : Option (Except TorError Unit)}

theorem Started.take
    (h : Started chatSocket s.startup opening n es replies (m, reported, result)) :
    (replies.drop 1).take n = replies.drop 1 := by
  obtain ⟨last, hreplied, -⟩ := h.replied
  have hlength := hreplied.length
  have hcommands := congrArg List.length h.commands
  have hopening := h.opens.length_le
  rw [List.length_map, List.length_append, List.length_replicate] at hcommands
  apply List.take_of_length_le
  rw [List.length_drop]
  omega

theorem Started.issued
    (h : Started chatSocket s.startup opening n es replies (m, reported, result)) :
    m.issued = es := by
  by_cases hconnected : s.startup.connected = .ok ()
  · exact congrArg TorManager.issued (h.connected hconnected)
  · obtain ⟨hm, rfl⟩ := h.unconnected hconnected
    exact congrArg TorManager.issued hm

theorem Started.onion
    (h : Started chatSocket s.startup opening n es replies (m, reported, result)) :
    m.onion = none := by
  by_cases hconnected : s.startup.connected = .ok ()
  · exact congrArg TorManager.onion (h.connected hconnected)
  · exact congrArg TorManager.onion (h.unconnected hconnected).1

theorem Started.percent
    (h : Started chatSocket s.startup opening n es replies (m, reported, result)) :
    ∀ percent ∈ reported, percent ≤ 100 := by
  intro percent hmem
  rw [show reported = _ from h.reported] at hmem
  obtain ⟨reply, -, hreply⟩ := List.mem_filterMap.mp hmem
  exact bootstrapProgress_le hreply

/-- A start that succeeds has spoken to Tor and got all its replies. -/
theorem Started.ready
    (h : Started chatSocket s.startup opening n es replies (m, reported, some (.ok ()))) :
    s.startup.connected = .ok () ∧ Replied {} es replies none ∧ replies.length = n + 1 := by
  obtain ⟨last, hreplied, hlast⟩ := h.replied
  obtain rfl := hlast rfl
  have hlength := hreplied.length
  have hcommands := congrArg List.length h.commands
  have hopening := h.opens.length_le
  rw [List.length_map, List.length_append, List.length_replicate] at hcommands
  have hspoken : es ≠ [] := by
    rintro rfl
    obtain rfl : replies = [] := List.length_eq_zero_iff.mp (by simpa using hlength)
    have hmem := h.complete.mp rfl
    rw [h.reported] at hmem
    cases hmem
  have hopened : opening ≠ [] := fun heq => hspoken (h.unopened heq)
  refine ⟨?_, hreplied, ?_⟩
  · by_contra hconnected
    exact hspoken (h.unconnected hconnected).2
  · have hpos := List.length_pos_iff.mpr hopened
    simp only [Option.toList_none, List.length_nil] at hlength
    omega

/-- A manager with or without a connection when everything is said. -/
theorem Started.goodbye
    (h : Started chatSocket s.startup opening n es replies (m, reported, result))
    (deletion signal : Response) : ∃ es', m.goodbye deletion signal = m.after es' ∧
      es'.map Exchange.command =
        if s.startup.connected = .ok () then farewell none else [] := by
  by_cases hconnected : s.startup.connected = .ok ()
  · have hcontrol := congrArg TorManager.control (h.connected hconnected)
    rw [if_pos hconnected, ← h.onion]
    exact goodbye_spec hcontrol deletion signal
  · have hcontrol : m.control = none := congrArg TorManager.control (h.unconnected hconnected).1
    rw [if_neg hconnected, goodbye_unconnected hcontrol]
    exact ⟨[], m.after_nil.symm, rfl⟩

theorem Started.client
    (h : Started chatSocket s.startup opening n es replies (m, reported, result))
    (es' : List Exchange) : (m.after es').control =
      if s.startup.connected = .ok () then
        some (Machine.after ControlClient.exchange (m.after es').issued {})
      else none := by
  by_cases hconnected : s.startup.connected = .ok ()
  · have hcontrol := congrArg TorManager.control (h.connected hconnected)
    rw [if_pos hconnected, TorManager.control_after hcontrol, TorManager.issued_after,
      Machine.after_append, h.issued]
  · have hcontrol : m.control = none := congrArg TorManager.control (h.unconnected hconnected).1
    rw [if_neg hconnected, TorManager.after, hcontrol]
    rfl

/-- A session in which no onion service was asked for. -/
theorem Started.sound {C : Uri.Codecs} {hosting : Bool} {es' : List Exchange}
    (h : Started chatSocket s.startup opening n es replies (m, reported, result))
    (hhosting : ¬ (hosting = true ∧ 100 ∈ reported))
    (hfarewell : es'.map Exchange.command =
      if result.isSome ∧ s.startup.connected = .ok () then farewell none else [])
    (hclosed : result.isSome → closed = { m.after es' with control := none, onion := none }) :
    TorSession.Sound C hosting chatSocket s ⟨m, reported, result, none, m.after es', closed⟩ opening
      n replies where
  opens := h.opens
  unopened hopening := h.issued.trans (h.unopened hopening)
  said := by
    have hcommands := h.commands
    rw [← h.issued] at hcommands
    simpa using hcommands
  replied := by
    obtain ⟨last, hreplied, -⟩ := h.replied
    exact ⟨last, h.issued ▸ hreplied⟩
  reported := by
    rw [h.take]
    exact h.reported
  percent := h.percent
  growing := h.growing
  started := h.complete
  asked := iff_of_false nofun hhosting
  service := nofun
  farewell := by
    rw [TorManager.issued_after, List.map_append, hfarewell]
    rfl
  client := h.client es'
  closed := hclosed

/-- A session in which an onion service was asked for. -/
theorem Started.sound_hosting {C : Uri.Codecs}
    (h : Started chatSocket s.startup opening n es replies (m, reported, some (.ok ()))) :
    ∃ replies', TorSession.Sound C true chatSocket s
      ⟨(m.addOnion C virtualPort s.onion).1, reported, some (.ok ()),
        some (m.addOnion C virtualPort s.onion).2,
        (m.addOnion C virtualPort s.onion).1.goodbye s.deletion s.signal,
        (m.addOnion C virtualPort s.onion).1.shutdown s.deletion s.signal⟩ opening n replies' := by
  obtain ⟨hconnected, hreplied, hlength⟩ := h.ready
  have hcontrol := congrArg TorManager.control (h.connected hconnected)
  have hchatSocket : m.chatSocket = chatSocket :=
    congrArg TorManager.chatSocket (h.connected hconnected)
  obtain ⟨e, more, last, hafter, hcommand, hmore, hservice⟩ :=
    addOnion_spec (C := C) (show virtualPort ≠ 0 by decide) hcontrol h.onion s.onion
  rw [hchatSocket] at hcommand hservice
  generalize m.addOnion C virtualPort s.onion = out at hafter hservice ⊢
  obtain ⟨m', onion⟩ := out
  dsimp only at hafter hservice ⊢
  have hissued : m'.issued = es ++ [e] := by
    rw [hafter, ← h.issued]
    rfl
  have hcontrol' : m'.control = some (Machine.after ControlClient.exchange [e]
      (Machine.after ControlClient.exchange es {})) := by
    rw [hafter]
    exact TorManager.control_after hcontrol [e]
  have honion : m'.onion = onion.toOption := by rw [hafter]
  have hdrop : ((replies ++ more).drop 1).take n = replies.drop 1 := by
    rw [List.drop_append_of_le_length (by omega)]
    exact List.take_left' (by rw [List.length_drop]; omega)
  obtain ⟨es', hgoodbye, hfarewell⟩ := goodbye_spec hcontrol' s.deletion s.signal
  refine ⟨replies ++ more, ?_⟩
  constructor
  case opens => exact h.opens
  case unopened =>
    intro hopening
    rw [h.unopened hopening] at hreplied
    have hnone := hreplied.length
    simp [hlength] at hnone
  case said =>
    dsimp only
    rw [hissued, List.map_append, h.commands, List.map_singleton, hcommand]
    rfl
  case replied => exact ⟨last, hissued ▸ hreplied.append hmore⟩
  case reported => rw [hdrop, ← h.reported]
  case percent => exact h.percent
  case growing => exact h.growing
  case started => exact h.complete
  case asked => exact iff_of_true rfl ⟨rfl, h.complete.mp rfl⟩
  case service =>
    intro service heq
    obtain ⟨reply, rfl, hreply⟩ := hservice service (Option.some.inj heq)
    refine ⟨reply, ?_, hreply⟩
    rw [List.getElem?_append_right (by omega), hlength, Nat.sub_self]
    rfl
  case farewell =>
    dsimp only
    rw [hgoodbye, TorManager.issued_after, List.map_append, hfarewell, honion,
      if_pos ⟨rfl, hconnected⟩]
    rfl
  case client =>
    dsimp only
    rw [if_pos hconnected, hgoodbye, TorManager.control_after hcontrol', TorManager.issued_after,
      hissued, Machine.after_append, Machine.after_append]
  case closed => exact fun _ => rfl

end

theorem torSession_sound (C : Uri.Codecs) (hosting : Bool) (chatSocket : Bytes)
    (s : Circumstances) : ∃ opening n replies,
      (torSession C hosting chatSocket s).Sound C hosting chatSocket s opening n replies := by
  obtain ⟨opening, n, es, replies, hstarted⟩ := start_spec chatSocket s.startup
  rw [torSession]
  generalize TorManager.start { chatSocket } s.startup = out at hstarted ⊢
  obtain ⟨m, reported, _ | error | _⟩ := out
  · have hunfinished : ¬ (hosting = true ∧ 100 ∈ reported) :=
      fun h => (nomatch hstarted.complete.mpr h.2)
    have hsound : TorSession.Sound C hosting chatSocket s
        ⟨m, reported, none, none, m.after [], m⟩ opening n replies :=
      hstarted.sound hunfinished (by simp) nofun
    rw [TorManager.after_nil] at hsound
    exact ⟨opening, n, replies, hsound⟩
  · have hfailed : ¬ (hosting = true ∧ 100 ∈ reported) :=
      fun h => (nomatch hstarted.complete.mpr h.2)
    obtain ⟨es', hgoodbye, hfarewell⟩ := hstarted.goodbye s.deletion s.signal
    dsimp only
    rw [TorManager.shutdown, hgoodbye]
    exact ⟨opening, n, replies, hstarted.sound hfailed (by simpa using hfarewell) fun _ => rfl⟩
  · cases hosting with
    | false =>
        obtain ⟨es', hgoodbye, hfarewell⟩ := hstarted.goodbye s.deletion s.signal
        dsimp only
        rw [if_neg Bool.false_ne_true, TorManager.shutdown, hgoodbye]
        exact ⟨opening, n, replies, hstarted.sound nofun (by simpa using hfarewell) fun _ => rfl⟩
    | true =>
        obtain ⟨replies', hsound⟩ := hstarted.sound_hosting (C := C)
        exact ⟨opening, n, replies', hsound⟩

/-! ### What is written -/

theorem breaksLine_eq_false {command : Bytes} :
    breaksLine command = false ↔ ∀ byte ∈ command, byte ≠ 13 ∧ byte ≠ 10 := by
  rw [breaksLine, decide_eq_false_iff_not, not_or]
  constructor
  · rintro ⟨hreturn, hnewline⟩ byte hmem
    exact ⟨fun heq => hreturn (heq ▸ hmem), fun heq => hnewline (heq ▸ hmem)⟩
  · exact fun h => ⟨fun hmem => (h _ hmem).1 rfl, fun hmem => (h _ hmem).2 rfl⟩

theorem breaksLine_append {first rest : Bytes} (hfirst : breaksLine first = false)
    (hrest : breaksLine rest = false) : breaksLine (first ++ rest) = false := by
  rw [breaksLine_eq_false] at *
  intro byte hmem
  exact (List.mem_append.mp hmem).elim (hfirst byte) (hrest byte)

theorem breaksLine_hex (cookie : Bytes) : breaksLine (hex cookie) = false := by
  have hdigits : ∀ digit ∈ utf8 "0123456789abcdef", digit ≠ 13 ∧ digit ≠ 10 := by
    decide +kernel
  have hdigit (i : Nat) : (utf8 "0123456789abcdef").getD i 0 ≠ 13 ∧
      (utf8 "0123456789abcdef").getD i 0 ≠ 10 := by
    rw [List.getD_eq_getElem?_getD]
    cases hget : (utf8 "0123456789abcdef")[i]? with
    | none => decide
    | some digit => exact hdigits digit (List.mem_of_getElem? hget)
  rw [breaksLine_eq_false]
  intro byte hmem
  obtain ⟨value, -, hbyte⟩ := List.mem_flatMap.mp hmem
  obtain rfl | hbyte := List.mem_cons.mp hbyte
  · exact hdigit _
  · obtain rfl := List.mem_singleton.mp hbyte
    exact hdigit _

/-- The address of a service is one line. -/
theorem breaksLine_delOnionCommand {C : Uri.Codecs} {virtualPort : Nat} {command : Bytes}
    {reply : Reply} {service : OnionService}
    (h : serviceOf C virtualPort command reply = .ok service) :
    breaksLine (delOnionCommand service) = false := by
  have halphabet : ∀ byte ∈ Uri.bytes Uri.onionV3Alphabet, byte ≠ 13 ∧ byte ≠ 10 := by
    decide +kernel
  obtain ⟨serviceId, rfl, hvalid⟩ := serviceOf_eq_ok h
  have hstrip : Split.stripSuffix (utf8 ".onion") (serviceId ++ utf8 ".onion") = some serviceId :=
    Split.stripSuffix_eq_some.mpr rfl
  rw [isValidOnionAddress, hstrip] at hvalid
  rw [delOnionCommand, hstrip]
  refine breaksLine_append (by decide +kernel) (breaksLine_eq_false.mpr fun byte hmem => ?_)
  dsimp only at hvalid
  split at hvalid
  · cases hvalid
  rw [Bool.and_eq_true, List.all_eq_true] at hvalid
  exact halphabet byte (of_decide_eq_true (hvalid.1 byte hmem))

/-- Whatever the manager asks of Tor is one line, if the path of its socket is. -/
theorem TorSession.Sound.lines {C : Uri.Codecs} {hosting : Bool} {chatSocket : Bytes}
    {s : Circumstances} {o : TorSession} {opening : List Bytes} {n : Nat} {replies : List Reply}
    (h : o.Sound C hosting chatSocket s opening n replies) (hpath : breaksLine chatSocket = false) :
    ∀ e ∈ o.parting.issued, breaksLine e.command = false := by
  have hopening : ∀ command ∈ opening, breaksLine command = false := by
    intro command hmem
    cases h.opens with
    | unsaid => cases hmem
    | cookie _ _ _ _ =>
        obtain rfl := List.mem_singleton.mp hmem
        exact breaksLine_append (by decide +kernel) (breaksLine_hex _)
  have honion : ∀ command ∈ Tor.farewell (o.onion.bind Except.toOption),
      breaksLine command = false := by
    intro command hmem
    obtain hmem | hmem := List.mem_append.mp hmem
    · obtain ⟨service, hservice, rfl⟩ := List.mem_map.mp hmem
      rw [Option.mem_toList, Option.bind_eq_some_iff] at hservice
      obtain ⟨_ | service, hasked, rfl | _⟩ := hservice
      obtain ⟨reply, -, hreply⟩ := h.service service hasked
      exact breaksLine_delOnionCommand hreply
    · obtain rfl := List.mem_singleton.mp hmem
      decide +kernel
  intro e he
  have hmem := List.mem_map_of_mem (f := Exchange.command) he
  rw [h.farewell, h.said, List.mem_append, List.mem_append, List.mem_append] at hmem
  obtain ((hmem | hmem) | hmem) | hmem := hmem
  · exact hopening _ hmem
  · rw [List.eq_of_mem_replicate hmem]
    decide +kernel
  · split at hmem
    · rw [List.mem_singleton.mp hmem, addOnionCommand]
      exact breaksLine_append (by decide +kernel) hpath
    · cases hmem
  · split at hmem
    · exact honion _ hmem
    · cases hmem

/-- Every session of the program with its Tor, whatever that does: it asks what it asks in this
order, takes from the replies what it takes, and ends as it does. What is written is the commands
asked, a line each, up to the first that times out and but for those the socket refuses. When Tor
answers what it is asked, the replies are its answers to these commands, from the first one on; and
the onion service of a host makes invitations. -/
theorem tor_session (C : Uri.Codecs) (hosting : Bool) (chatSocket : Bytes) (s : Circumstances) :
    let o := torSession C hosting chatSocket s
    ∃ opening n replies, o.Sound C hosting chatSocket s opening n replies ∧
      (∀ c ∈ o.parting.control, c.written = unlines (spoken o.parting.issued {})) ∧
      (breaksLine chatSocket = false → ∀ e ∈ o.parting.issued, breaksLine e.command = false) ∧
      (∀ tor, Machine.Offered (Dialogue.exchange tor) (Dialogue.Honest tor) o.manager.issued {} →
        replies <+: answers tor [] (o.manager.issued.map Exchange.command)) ∧
      ∀ service, o.onion = some (.ok service) → service.virtualPort = virtualPort ∧
        ∃ address, Uri.bytes address = service.onionAddress ∧
          ∀ token : Bytes, Uri.minTokenBytes ≤ token.length → token.length ≤ Uri.maxTokenBytes →
            Uri.Invitation.new C address 80 token = .ok ⟨address, 80, token⟩ := by
  dsimp only
  obtain ⟨opening, n, replies, hsound⟩ := torSession_sound C hosting chatSocket s
  refine ⟨opening, n, replies, hsound, fun c hc => ?_, hsound.lines, fun tor h => ?_,
    fun service hservice => ?_⟩
  · rw [hsound.client] at hc
    split at hc
    · cases hc
      exact written_after _ {}
    · cases hc
  · obtain ⟨last, hreplied⟩ := hsound.replied
    exact hreplied.answers h
  · obtain ⟨reply, -, hreply⟩ := hsound.service service hservice
    obtain ⟨hport, address, haddress, hvalid⟩ := serviceOf_ok hreply
    refine ⟨hport, address, haddress, fun token hmin hmax => ?_⟩
    rw [Uri.Invitation.new, hvalid]
    dsimp only
    rw [if_neg (by decide), if_neg (not_not.mpr ⟨hmin, hmax⟩)]

/-- A host whose Tor is ready at the second poll. -/
def hosted : Circumstances where
  startup := {
    connected := .ok ()
    effectiveUid := some 1000
    cookie := [.missing false, .file (List.replicate 32 0xab) (some ⟨1000, 0o600⟩)]
    authentication := ⟨[utf8 "250 O", utf8 "K\r\n"], .silent⟩
    polls := [
      ⟨.ok false, [utf8 "250-x PROGRESS=25 y\r\n250 OK\r\n"], some .silent, false⟩,
      ⟨.ok false, [utf8 "250-x PROGRESS=100 y\r\n", utf8 "250 OK\r\n"], none, true⟩] }
  onion := ⟨[utf8
    "250-ServiceID=aaaaaaaaaaaaaaaaaaaaaaaaaaaaaaaaaaaaaaaaaaaaaaaaaaam2dqd\r\n250 OK\r\n"],
    .silent⟩
  deletion := ⟨[utf8 "250 OK\r\n"], .silent⟩
  signal := ⟨[], .silent⟩

example : (torSession Uri.codecs true (utf8 "/chat.sock") hosted).reported = [25, 100] ∧
    (torSession Uri.codecs true (utf8 "/chat.sock") hosted).onion = some (.ok
      ⟨utf8 "aaaaaaaaaaaaaaaaaaaaaaaaaaaaaaaaaaaaaaaaaaaaaaaaaaam2dqd.onion", 80⟩) := by
  decide +kernel

end Tor
end Veilroom
