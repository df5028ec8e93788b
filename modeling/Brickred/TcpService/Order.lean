import Brickred.TcpService.Bookkeeping

/-!
# The order of the callbacks

* `Turn` — what a step can do to a connection and to what has been reported about it.
* `CallbacksOrdered` — `NewConnectionCallback` is called at most once and before the other two,
  and a connection with an error does not become connected.
* `ConnectsFirst` — `onAsyncConnectSocketWrite` finds no error and the connection still
  connecting.  It does not look at the status, and reading `SO_ERROR` has cleared it.
* `callbacks_ordered` — when the callbacks are ordered.
* `error_then_newConnection` — a connection that is refused, and then reported as new.
-/

set_option autoImplicit false

namespace Brickred

namespace TcpService

open Runs

variable {κ : Type}

def isConnected (s : TcpService κ) (id : SocketId) : Bool :=
  match s.connections id with
  | none => false
  | some connection => decide (connection.status = .connected)

/-! ## What a step does to a connection -/

/-- Nothing is reported.  A link that waits to be connected stays as it is. -/
def Link.Quiet (l l' : Link κ) : Prop :=
  l.Weaker l' ∧
    ((l'.connection).isSome → l'.writeCb = .onAsyncConnectSocketWrite → l' = l)

/-- A connected link does not wait to be connected. -/
def Link.Proper (l : Link κ) : Prop :=
  ∀ connection, l = ⟨some connection, .onAsyncConnectSocketWrite⟩ → connection.status ≠ .connected

namespace Observed

/-- The link of the socket `c` and the reports about it, before and after a step. -/
inductive Turn (c : SocketId) (op : Op κ) (l l' : Link κ) (rs rs' : List Report) : Prop
  | opened (hrs : rs' = []) (hl : l' = ⟨some (.new .connected), .null⟩ ∨
      l' = ⟨some (.new .connecting), .onAsyncConnectSocketWrite⟩)
  | quiet (hrs : rs' = rs) (hl : l.Quiet l')
  | ended (r : Report) (connection connection' : TcpConnection κ) (hr : r ≠ .newConnection)
      (hrs : rs' = rs ++ [r]) (hl : l.connection = some connection)
      (hl' : l' = ⟨some connection', l.writeCb⟩) (hfinal : connection'.status.Final)
  | established (connection : TcpConnection κ) (kernel : SendResult)
      (hop : op = .writable c kernel 0) (hrs : rs' = rs ++ [.newConnection])
      (hl : l = ⟨some connection, .onAsyncConnectSocketWrite⟩)
      (hl' : l' = ⟨some { connection with status := .connected }, .null⟩)

end Observed

theorem Link.Quiet.refl (l : Link κ) : l.Quiet l := ⟨.refl l, fun _ _ => rfl⟩

theorem Link.Quiet.of_none {l l' : Link κ} (h : l'.connection = none) : l.Quiet l' :=
  ⟨.of_none h, fun hsome => by rw [h] at hsome; cases hsome⟩

/-- The status stays or is final, and the write callback is another one. -/
theorem Link.Quiet.of_writeCb {connection connection' : TcpConnection κ}
    {writeCb writeCb' : WriteCallback}
    (hstatus : connection'.status = connection.status ∨ connection'.status.Final)
    (hcb : writeCb' ≠ .onAsyncConnectSocketWrite) :
    Link.Quiet ⟨some connection, writeCb⟩ ⟨some connection', writeCb'⟩ :=
  ⟨fun _ heq => by cases heq; exact ⟨fun h => absurd h hcb, connection, rfl, hstatus⟩,
    fun _ h => absurd h hcb⟩

theorem Link.Quiet.called {connection connection' : TcpConnection κ}
    {writeCb writeCb' : WriteCallback} (hstatus : connection'.status = connection.status)
    (hcb : writeCb' ≠ .onAsyncConnectSocketWrite) (sendCompleteCb : SendCompleteCallback κ) :
    Link.Quiet ⟨some connection, writeCb⟩ (Channel.called connection' writeCb' sendCompleteCb) := by
  cases sendCompleteCb with
  | null => exact .of_writeCb (.inl hstatus) hcb
  | user cb => exact .of_writeCb (.inl hstatus) hcb
  | close => exact .of_none rfl

/-- A call of `sendMessage` reports nothing. -/
theorem quiet_send {l : Link κ} (hl : l.Proper) (history : List (Effect κ)) (maxSize : Nat)
    (buffer : List UInt8) (sendCompleteCb : SendCompleteCallback κ) (kernel : SendResult) :
    l.Quiet (Channel.step ⟨l, history⟩ (.send maxSize buffer sendCompleteCb kernel)).link := by
  obtain ⟨_ | connection, writeCb⟩ := l
  · exact .of_none rfl
  have hcb : connection.status = .connected → writeCb ≠ .onAsyncConnectSocketWrite := by
    rintro hstatus rfl
    exact hl connection rfl hstatus
  obtain ⟨_, hch⟩ | ⟨hstatus, errno, hch⟩ | ⟨_, _, _, hch⟩ | ⟨hstatus, _, hch⟩ :=
    send_cases connection history kernel writeCb maxSize buffer sendCompleteCb rfl
  · rw [hch]
    exact .refl _
  · rw [hch]
    exact .of_writeCb (.inr (final_setError connection errno)) (hcb hstatus)
  · rw [hch]
    exact .of_writeCb (.inl rfl) WriteCallback.noConfusion
  · rw [hch]
    exact .called rfl (hcb hstatus) sendCompleteCb

namespace Observed

variable {w w' : Observed κ} {op : Op κ} {c id : SocketId}

theorem reportTo_eq {m : Machine κ} {o : Option Report} (h : m.report op = o.map (id, ·)) :
    m.reportTo op c = if id = c then o.toList else [] := by
  unfold Machine.reportTo
  rw [h]
  cases o with
  | none => rw [Option.toList_none, ite_self]; rfl
  | some r => rfl

theorem report_ite {p : Prop} [Decidable p] (id : SocketId) (r : Report) :
    (if p then some (id, r) else none) = (if p then some r else none).map (id, ·) := by
  split <;> rfl

/-- An event of the socket `id`, for any socket. -/
theorem turn_event (id : SocketId) (o : Option Report) (chop : Channel.Op κ)
    (hs : w.quietStep op = some w') (hE : w.machine.Enabled op)
    (hopens : w.machine.opens op = none) (hreport : w.machine.report op = o.map (id, ·))
    (hproject : w.machine.project c op = if id = c then chop else .idle)
    (hturn : id = c → Turn c op (w.machine.service.link c) ((w.machine.view c).step chop).link
      (w.reports c) (w.reports c ++ o.toList)) :
    Turn c op (w.machine.service.link c) (w'.machine.service.link c) (w.reports c)
      (w'.reports c) := by
  have hlink := congrArg Channel.link (view_step (c := c) hE (quietStep_machine hs))
  rw [hproject] at hlink
  have hreports : w'.reports c = w.reports c ++ if id = c then o.toList else [] := by
    rw [quietStep_reports hs, reportsAfter, hopens, if_neg nofun, reportTo_eq hreport]
  rw [hreports, show w'.machine.service.link c = _ from hlink]
  by_cases heq : id = c
  · rw [if_pos heq, if_pos heq]
    exact hturn heq
  · rw [if_neg heq, if_neg heq, List.append_nil]
    exact .quiet rfl (.refl _)

/-- An event that ends the connection, if there is one. -/
theorem turn_edit {l : Link κ} {rs : List Report} {r : Report}
    (f : TcpConnection κ → TcpConnection κ) (hfinal : ∀ connection, (f connection).status.Final)
    (hr : r ≠ .newConnection) :
    Turn c op l (l.edit f) rs (rs ++ (if l.connection.isSome then some r else none).toList) := by
  obtain ⟨_ | connection, writeCb⟩ := l
  · exact .quiet (List.append_nil rs) (.of_none rfl)
  · exact .ended r connection (f connection) hr rfl rfl rfl (hfinal connection)

section Writable

variable {m : Machine κ} {socket : TcpSocket} {connection : TcpConnection κ} {kernel : SendResult}
  {socketError : Int} (hsocket : m.service.sockets c = some socket)
  (hcon : m.service.connections c = some connection)

include hsocket hcon

theorem writableReport_connect (hcb : socket.writeCb = .onAsyncConnectSocketWrite) :
    m.writableReport c kernel socketError = some (connectReport socketError) := by
  simp only [Machine.writableReport, hsocket, hcon, bind, Option.bind_some, hcb]

theorem writableReport_write (hcb : socket.writeCb = .onSocketWrite) :
    m.writableReport c kernel socketError = writeReport connection kernel := by
  simp only [Machine.writableReport, hsocket, hcon, bind, Option.bind_some, hcb]

end Writable

/-- `EPOLLOUT` on the socket `c`. -/
theorem turn_writable {kernel : SendResult} {socketError : Int}
    (hs : w.machine.writable c kernel socketError = some w'.machine) :
    Turn c (.writable c kernel socketError) (w.machine.service.link c)
      ((w.machine.view c).step (.writable kernel socketError)).link (w.reports c)
      (w.reports c ++ (w.machine.writableReport c kernel socketError).toList) := by
  obtain ⟨socket, hsocket, hs⟩ := Option.bind_eq_some_iff.1 hs
  have hcb := link_of_socket hsocket
  cases hcon : w.machine.service.connections c with
  | none =>
    have hreport : w.machine.writableReport c kernel socketError = none := by
      rw [Machine.writableReport, hsocket, hcon]
      rfl
    rw [hreport, view_eq (link_of_none hcon)]
    exact .quiet (List.append_nil _) (.of_none rfl)
  | some connection =>
    have hlink := link_of_connection hcon
    rw [hcb] at hlink
    rw [view_eq hlink, hlink]
    cases hwrite : socket.writeCb with
    | null =>
      rw [hwrite] at hs
      cases hs
    | onAsyncConnectSocketWrite =>
      rw [writableReport_connect hsocket hcon hwrite]
      by_cases herror : socketError = 0
      · subst herror
        exact .established connection kernel rfl rfl rfl rfl
      · refine .ended .error connection (connection.setError socketError) Report.noConfusion ?_ rfl
          ?_ (final_setError connection socketError)
        · rw [connectReport, if_pos herror]
          rfl
        · simp only [Channel.step, Channel.afterConnect]
          rw [if_pos herror]
    | onSocketWrite =>
      rw [writableReport_write hsocket hcon hwrite]
      simp only [Channel.step, Channel.afterWrite, writeReport]
      obtain ⟨_, errno, hr⟩ | ⟨_, hr⟩ | ⟨n, _, _, hr⟩ | ⟨n, _, _, hr⟩ :=
        onSocketWrite_cases connection kernel rfl
      · rw [hr]
        exact .ended .error connection _ Report.noConfusion rfl rfl rfl
          (final_setError connection errno)
      · rw [hr]
        exact .quiet (List.append_nil _) (.refl _)
      · rw [hr]
        exact .quiet (List.append_nil _) (.of_writeCb (.inl rfl) WriteCallback.noConfusion)
      · rw [hr]
        dsimp only
        exact .quiet (List.append_nil _) (.called (by rfl) WriteCallback.noConfusion _)

/-- `onSendMessageError` finds the connection with its error. -/
def SettlesFinal (c : SocketId) (w : Observed κ) (op : Op κ) : Prop :=
  w.machine.settles op = some c →
    ∀ connection, w.machine.service.connections c = some connection → connection.status.Final

/-- The socket `c` is opened, or it is not. -/
theorem turn_opens {o : Option SocketId} (hs : w.quietStep op = some w') (hE : w.machine.Enabled op)
    (hopens : w.machine.opens op = o) (hreport : w.machine.report op = none) {chop : Channel.Op κ}
    {l : Link κ} (hproject : w.machine.project c op = if o = some c then chop else .idle)
    (hop : ∀ ch : Channel κ, ch.step chop = ⟨l, []⟩)
    (hl : l = ⟨some (.new .connected), .null⟩ ∨
      l = ⟨some (.new .connecting), .onAsyncConnectSocketWrite⟩) :
    Turn c op (w.machine.service.link c) (w'.machine.service.link c) (w.reports c)
      (w'.reports c) := by
  have hlink := congrArg Channel.link (view_step (c := c) hE (quietStep_machine hs))
  rw [hproject] at hlink
  rw [show w'.machine.service.link c = _ from hlink, quietStep_reports hs, reportsAfter, hopens]
  by_cases heq : o = some c
  · rw [if_pos heq, if_pos heq, hop]
    exact .opened rfl hl
  · rw [if_neg heq, if_neg heq, Machine.reportTo, hreport]
    exact .quiet (List.append_nil _) (.refl _)

theorem turn_timeout {timerId : TimerId} (hs : w.quietStep (.timeout timerId) = some w')
    (hE : w.machine.Enabled (.timeout timerId)) (hsettles : SettlesFinal c w (.timeout timerId)) :
    Turn c (.timeout timerId) (w.machine.service.link c) (w'.machine.service.link c) (w.reports c)
      (w'.reports c) := by
  obtain ⟨timerCb, hcb⟩ := Option.isSome_iff_exists.1 hE
  cases hid : w.machine.service.timerToSocketMap timerId with
  | none =>
    refine turn_event c none .idle hs hE rfl ?_ ?_ fun _ => ?_
    · rw [Machine.report, hid]
      rfl
    · simp only [Machine.project, hcb]
      cases timerCb with
      | onAsyncConnectTimeout =>
        have hnone : ¬ (none = some c ∧ (w.machine.service.sockets c).isSome) := by
          rintro ⟨h, _⟩
          cases h
        rw [projectTimeout, hid, if_neg hnone, ite_self]
      | onSendMessageError => rw [projectTimeout, ite_self]
    · exact .quiet (List.append_nil _) (.refl _)
  | some id =>
    have hreport : w.machine.report (.timeout timerId) =
        (if (w.machine.service.sockets id).isSome ∧ (w.machine.service.connections id).isSome then
          some Report.error else none).map (id, ·) := by
      rw [Machine.report, hid]
      exact report_ite id .error
    cases timerCb with
    | onAsyncConnectTimeout =>
      refine turn_event id _ (if (w.machine.service.sockets id).isSome then .setError ETIMEDOUT
        else .idle) hs hE rfl hreport ?_ ?_
      · simp only [Machine.project, hcb, projectTimeout, hid, Option.some.injEq, ite_and]
        by_cases heq : id = c
        · rw [if_pos heq, if_pos heq, heq]
        · rw [if_neg heq, if_neg heq]
      · rintro rfl
        by_cases hsocket : (w.machine.service.sockets id).isSome
        · rw [if_pos hsocket, Machine.view, step_setError, ite_and, if_pos hsocket]
          exact turn_edit _ (fun connection => final_setError connection _) Report.noConfusion
        · rw [if_neg hsocket, ite_and, if_neg hsocket]
          exact .quiet (List.append_nil _) (.refl _)
    | onSendMessageError =>
      refine turn_event id _ .idle hs hE rfl hreport ?_ ?_
      · simp only [Machine.project, hcb, projectTimeout]
        rw [ite_self]
      · rintro rfl
        by_cases hopen : (w.machine.service.sockets id).isSome ∧
          (w.machine.service.connections id).isSome
        · rw [if_pos hopen]
          obtain ⟨connection, hcon⟩ := Option.isSome_iff_exists.1 hopen.2
          have hsettle : w.machine.settles (.timeout timerId) = some id := by
            rw [Machine.settles, hcb]
            exact hid
          exact .ended .error connection connection Report.noConfusion rfl hcon
            (link_of_connection hcon) (hsettles hsettle connection hcon)
        · rw [if_neg hopen]
          exact .quiet (List.append_nil _) (.refl _)

/-- **What a step can do to a connection.** -/
theorem turn_step (hproper : (w.machine.service.link c).Proper) (hsettles : SettlesFinal c w op)
    (hE : w.machine.Enabled op) (hs : w.step op = some w') :
    Turn c op (w.machine.service.link c) (w'.machine.service.link c) (w.reports c)
      (w'.reports c) := by
  have hlink := congrArg Channel.link (view_step (c := c) hE (step_machine hs))
  cases op with
  | sendMessage id buffer sendCompleteCb kernel =>
    refine .quiet (congrFun (sendMessage_reports hs) c) ?_
    rw [show w'.machine.service.link c = _ from hlink, Machine.project]
    split
    · exact quiet_send hproper _ _ _ _ _
    · exact .refl _
  | broadcastMessage buffer order kernel =>
    refine .quiet (congrFun (broadcastMessage_reports hs) c) ?_
    rw [show w'.machine.service.link c = _ from hlink]
    exact quiet_send hproper _ _ _ _ _
  | buildListenSocket fd =>
    exact turn_event c none .idle hs hE rfl rfl (ite_self _).symm
      fun _ => .quiet (List.append_nil _) (.refl _)
  | buildConnectedSocket fd => exact turn_opens hs hE rfl rfl rfl (fun _ => rfl) (.inl rfl)
  | buildAsyncConnectSocket fd timeoutMs =>
    exact turn_opens hs hE rfl rfl rfl (fun _ => rfl) (.inr rfl)
  | closeSocket id =>
    exact turn_event id none .close hs hE rfl rfl rfl
      fun _ => .quiet (List.append_nil _) (.of_none rfl)
  | setContext id context =>
    exact turn_event c none .idle hs hE rfl rfl (ite_self _).symm
      fun _ => .quiet (List.append_nil _) (.refl _)
  | setSendBufferMaxSize size =>
    exact turn_event c none .idle hs hE rfl rfl (ite_self _).symm
      fun _ => .quiet (List.append_nil _) (.refl _)
  | writable id kernel socketError =>
    refine turn_event id _ (.writable kernel socketError) hs hE rfl rfl rfl ?_
    rintro rfl
    exact turn_writable (quietStep_machine hs)
  | readable id readEnd =>
    cases readEnd with
    | drained =>
      exact turn_event id none .idle hs hE rfl (ite_self _) rfl
        fun _ => .quiet (List.append_nil _) (.refl _)
    | peerClose =>
      refine turn_event id (if (w.machine.service.connections id).isSome then some .peerClose
        else none) .peerClose hs hE rfl (report_ite id _) rfl ?_
      rintro rfl
      rw [Machine.view, show Channel.Op.peerClose = projectReadable .peerClose from rfl,
        step_projectReadable]
      exact turn_edit _ (fun _ => ⟨Status.noConfusion, Status.noConfusion⟩) Report.noConfusion
    | failed errno =>
      refine turn_event id (if (w.machine.service.connections id).isSome then some .error
        else none) (.setError errno) hs hE rfl (report_ite id _) rfl ?_
      rintro rfl
      rw [Machine.view, step_setError]
      exact turn_edit _ (fun connection => final_setError connection _) Report.noConfusion
  | socketError id socketError errno =>
    refine turn_event id (if (w.machine.service.connections id).isSome then some .error
      else none) (.setError (if socketError = 0 then errno else socketError)) hs hE rfl
      (report_ite id _) rfl ?_
    rintro rfl
    rw [Machine.view, step_setError]
    exact turn_edit _ (fun connection => final_setError connection _) Report.noConfusion
  | timeout timerId => exact turn_timeout hs hE hsettles

/-! ## The order of the callbacks -/

/-- `NewConnectionCallback` follows no other callback, and a connection with an error is not
connected. -/
def CallbacksOrdered (c : SocketId) (w : Observed κ) : Prop :=
  (w.reports c).Pairwise (fun _ r => r ≠ .newConnection) ∧
    (.error ∈ w.reports c → w.machine.service.isConnected c = false)

/-- A connection that is made was still to be made. -/
def ConnectsFirst (c : SocketId) (w : Observed κ) (op : Op κ) : Prop :=
  ∀ connection kernel, op = .writable c kernel 0 →
    w.machine.service.link c = ⟨some connection, .onAsyncConnectSocketWrite⟩ →
      connection.status = .connecting

/-- While a connection is still to be made nothing has been reported; once it cannot be made, that
has been. -/
def Waiting (l : Link κ) (rs : List Report) : Prop :=
  ∀ connection, l = ⟨some connection, .onAsyncConnectSocketWrite⟩ →
    connection.status ≠ .connected ∧ (connection.status = .connecting → rs = []) ∧
      (connection.status ≠ .connecting → .error ∈ rs ∨ .peerClose ∈ rs)

section Turns

variable {l l' : Link κ} {rs rs' : List Report}

theorem Waiting.proper (h : Waiting l rs) : l.Proper := fun connection hl => (h connection hl).1

theorem Turn.waiting (h : Turn c op l l' rs rs') (hw : Waiting l rs) : Waiting l' rs' := by
  rintro k rfl
  cases h with
  | opened hrs hl =>
    obtain hl | hl := hl
    · cases hl
    · cases hl
      exact ⟨Status.noConfusion, fun _ => hrs, fun hne => absurd rfl hne⟩
  | quiet hrs hl =>
    rw [hrs]
    exact hw k (hl.2 rfl rfl).symm
  | ended r connection connection' hr hrs hl hl' hfinal =>
    cases congrArg Link.connection hl'
    refine ⟨hfinal.1, fun hconnecting => absurd hconnecting hfinal.2, fun _ => ?_⟩
    rw [hrs]
    cases r with
    | newConnection => exact absurd rfl hr
    | peerClose => exact .inr List.mem_concat_self
    | error => exact .inl List.mem_concat_self
  | established connection kernel hop hrs hl hl' => cases hl'

/-- Nothing connected has an error. -/
def ErrorsFinal (l : Link κ) (rs : List Report) : Prop :=
  .error ∈ rs → ∀ connection, l.connection = some connection → connection.status ≠ .connected

theorem Turn.pairwise (h : Turn c op l l' rs rs') (hrs : rs.Pairwise fun _ r => r ≠ .newConnection)
    (hempty : (∃ connection kernel, op = .writable c kernel 0 ∧
      l = ⟨some connection, .onAsyncConnectSocketWrite⟩) → rs = []) :
    rs'.Pairwise fun _ r => r ≠ .newConnection := by
  cases h with
  | opened hrs' hl =>
    rw [hrs']
    exact .nil
  | quiet hrs' hl =>
    rw [hrs']
    exact hrs
  | ended r connection connection' hr hrs' hl hl' hfinal =>
    rw [hrs', List.pairwise_append]
    refine ⟨hrs, List.pairwise_singleton _ _, fun _ _ r' hr' => ?_⟩
    rw [List.mem_singleton.1 hr']
    exact hr
  | established connection kernel hop hrs' hl hl' =>
    rw [hrs', hempty ⟨connection, kernel, hop, hl⟩]
    exact List.pairwise_singleton _ _

theorem Turn.errorsFinal (h : Turn c op l l' rs rs') (hrs : ErrorsFinal l rs)
    (hempty : (∃ connection kernel, op = .writable c kernel 0 ∧
      l = ⟨some connection, .onAsyncConnectSocketWrite⟩) → rs = []) : ErrorsFinal l' rs' := by
  intro herror k hk
  cases h with
  | opened hrs' hl =>
    rw [hrs'] at herror
    cases herror
  | quiet hrs' hl =>
    rw [hrs'] at herror
    obtain ⟨_, connection, hconnection, hsame | hfinal⟩ := hl.1 k hk
    · rw [hsame]
      exact hrs herror connection hconnection
    · exact hfinal.1
  | ended r connection connection' hr hrs' hl hl' hfinal =>
    rw [hl'] at hk
    cases hk
    exact hfinal.1
  | established connection kernel hop hrs' hl hl' =>
    rw [hrs', hempty ⟨connection, kernel, hop, hl⟩] at herror
    cases List.mem_singleton.1 herror

end Turns

theorem callbacksOrdered_iff : CallbacksOrdered c w ↔
    ((w.reports c).Pairwise fun _ r => r ≠ .newConnection) ∧
      ErrorsFinal (w.machine.service.link c) (w.reports c) := by
  refine and_congr_right fun _ => imp_congr_right fun _ => ?_
  change w.machine.service.isConnected c = false ↔
    ∀ connection, w.machine.service.connections c = some connection → connection.status ≠ .connected
  unfold isConnected
  cases w.machine.service.connections c with
  | none => exact iff_of_true rfl nofun
  | some connection =>
    refine decide_eq_false_iff_not.trans ⟨?_, fun h => h connection rfl⟩
    rintro hne _ ⟨⟩
    exact hne

/-- A connection that is made is reported. -/
theorem reports_connect {connection : TcpConnection κ} {kernel : SendResult}
    (hlink : w.machine.service.link c = ⟨some connection, .onAsyncConnectSocketWrite⟩)
    (hs : w.step (.writable c kernel 0) = some w') :
    w'.reports c = w.reports c ++ [.newConnection] := by
  obtain ⟨socket, hsocket, _⟩ := Option.bind_eq_some_iff.1 (quietStep_machine hs)
  have hcb : socket.writeCb = .onAsyncConnectSocketWrite :=
    (link_of_socket hsocket).symm.trans (congrArg Link.writeCb hlink)
  have hcon : w.machine.service.connections c = some connection := congrArg Link.connection hlink
  have hreport : w.machine.writableReport c kernel 0 = some .newConnection :=
    writableReport_connect hsocket hcon hcb
  have hopens : w.machine.opens (.writable c kernel 0) = none := rfl
  have hevent : w.machine.report (.writable c kernel 0) =
      (w.machine.writableReport c kernel 0).map (c, ·) := rfl
  rw [quietStep_reports hs, reportsAfter, hopens, if_neg nofun, reportTo_eq hevent, if_pos rfl,
    hreport]
  rfl

/-- The step of an ordered run. -/
theorem ordered_step (hw : Waiting (w.machine.service.link c) (w.reports c))
    (hordered : CallbacksOrdered c w) (hE : w.machine.Enabled op) (hsettles : SettlesFinal c w op)
    (hfirst : ConnectsFirst c w op) (hs : w.step op = some w') : CallbacksOrdered c w' := by
  have hturn := turn_step hw.proper hsettles hE hs
  obtain ⟨hpairwise, herrors⟩ := callbacksOrdered_iff.1 hordered
  have hempty : (∃ connection kernel, op = .writable c kernel 0 ∧
      w.machine.service.link c = ⟨some connection, .onAsyncConnectSocketWrite⟩) →
      w.reports c = [] := by
    rintro ⟨connection, kernel, hop, hlink⟩
    exact (hw connection hlink).2.1 (hfirst connection kernel hop hlink)
  exact callbacksOrdered_iff.2 ⟨hturn.pairwise hpairwise hempty, hturn.errorsFinal herrors hempty⟩

/-- The error of `sendMessage` is reported on a connection that has it. -/
theorem Tabled.settlesFinal (h : w.Tabled) : SettlesFinal c w op := by
  intro hsettles connection hcon
  obtain ⟨created, timed, failed, h⟩ := h
  have hfailed : c ∈ failed := by
    unfold Machine.settles at hsettles
    split at hsettles
    · rename_i timerId
      split at hsettles
      · rename_i hcb
        obtain ⟨_, timerCb, hcb', hfailed⟩ := h.pending c timerId ((h.inverse c timerId).2 hsettles)
        rw [hcb] at hcb'
        exact hfailed (Option.some.inj hcb').symm
      · cases hsettles
    · cases hsettles
  obtain ⟨hconnected, hconnecting, _⟩ := h.spent c hfailed connection _ (link_of_connection hcon)
  exact ⟨hconnected, hconnecting⟩

theorem waiting_init : Waiting (TcpService.init.link c : Link κ) [] := by
  rintro connection hl
  cases hl

theorem ordered_init : CallbacksOrdered c (init : Observed κ) := ⟨.nil, nofun⟩

/-- **When the callbacks are ordered.**  `onSendMessageError` finds an error as long as no id is
used twice; then it is only the making of a connection that can come too late. -/
theorem callbacks_ordered (c : SocketId) (ops : List (Op κ))
    (hE : EachStep step (fun w op => w.machine.Enabled op) init ops) :
    (EachStep step (fun w op => ConnectsFirst c w op ∧ SettlesFinal c w op) init ops →
      Along step (CallbacksOrdered c) init ops) ∧
    (EachStep step (fun w op => w.machine.Fresh op) init ops →
      (Along step (CallbacksOrdered c) init ops ↔ EachStep step (ConnectsFirst c) init ops)) := by
  constructor
  · intro hC
    have hinv : Along step (fun w => Waiting (w.machine.service.link c) (w.reports c) ∧
        CallbacksOrdered c w) init ops := by
      refine along_of_eachStep (fun w op w' hw hop hs => ?_) ⟨waiting_init, ordered_init⟩
        (hE.and hC)
      obtain ⟨hwaiting, hordered⟩ := hw
      obtain ⟨hE, hfirst, hsettles⟩ := hop
      exact ⟨(turn_step hwaiting.proper hsettles hE hs).waiting hwaiting,
        ordered_step hwaiting hordered hE hsettles hfirst hs⟩
    exact hinv.mono fun _ h => h.2
  · intro hF
    have hdef : ∀ (w : Observed κ) (op : Op κ),
        w.Tabled ∧ Waiting (w.machine.service.link c) (w.reports c) → w.Enabled op →
        ∃ w', w.step op = some w' ∧ w'.Tabled ∧
          Waiting (w'.machine.service.link c) (w'.reports c) := by
      rintro w op ⟨htabled, hwaiting⟩ hE
      obtain ⟨created, timed, failed, htables⟩ := id htabled
      obtain ⟨m, hm, _⟩ := TcpService.step_defined htables.coherent hE.1
      obtain ⟨w', hs⟩ := step_defined hm
      exact ⟨w', hs, tables_step htabled hE hs,
        (turn_step hwaiting.proper htabled.settlesFinal hE.1 hs).waiting hwaiting⟩
    refine along_iff_eachStep hdef (fun w op w' hI hordered hE hs => ⟨fun hordered' => ?_, fun hC =>
      ordered_step hI.2 hordered hE.1 hI.1.settlesFinal hC hs⟩) ⟨tabled_init, waiting_init⟩
      ordered_init (hE.and hF)
    rintro connection kernel rfl hlink
    by_contra hne
    have hpairwise := hordered'.1
    rw [reports_connect hlink hs, List.pairwise_append] at hpairwise
    obtain hmem | hmem := (hI.2 connection hlink).2.2 hne
    · exact hpairwise.2.2 _ hmem _ (List.mem_singleton_self _) rfl
    · exact hpairwise.2.2 _ hmem _ (List.mem_singleton_self _) rfl

/-- A connection that is made, and fails later. -/
def connectOps : List (Op Nat) :=
  [.buildAsyncConnectSocket 3 0, .writable firstId (.accepts 0 0) 0, .socketError firstId 104 0]

theorem connectOps_enabled :
    EachStep step (fun w op => w.machine.Enabled op) init connectOps := by
  refine ⟨trivial, ?_⟩
  rintro _ ⟨⟩
  refine ⟨⟨_, rfl, rfl, by decide⟩, ?_⟩
  rintro _ ⟨⟩
  exact ⟨⟨_, rfl, rfl⟩, fun _ _ => trivial⟩

theorem connectOps_first : EachStep step
    (fun w op => ConnectsFirst firstId w op ∧ SettlesFinal firstId w op) init connectOps := by
  refine ⟨⟨nofun, nofun⟩, ?_⟩
  rintro _ ⟨⟩
  refine ⟨⟨?_, nofun⟩, ?_⟩
  · rintro _ _ ⟨⟩ ⟨⟩
    rfl
  rintro _ ⟨⟩
  exact ⟨⟨nofun, nofun⟩, fun _ _ => trivial⟩

theorem connectOps_fresh : EachStep step (fun w op => w.machine.Fresh op) init connectOps := by
  refine ⟨⟨by decide, by decide, by decide⟩, ?_⟩
  rintro _ ⟨⟩
  refine ⟨trivial, ?_⟩
  rintro _ ⟨⟩
  exact ⟨trivial, fun _ _ => trivial⟩

theorem connectOps_ordered : Along step (CallbacksOrdered firstId) init connectOps ∧
    EachStep step (ConnectsFirst firstId) init connectOps := by
  obtain ⟨hsufficient, hexact⟩ := callbacks_ordered firstId connectOps connectOps_enabled
  have hordered := hsufficient connectOps_first
  exact ⟨hordered, (hexact connectOps_fresh).1 hordered⟩

/-- **A connection that is refused** is reported as new: `SO_ERROR` is cleared once it is read, and
the socket, if it is not closed, is still writable. -/
theorem error_then_newConnection :
    ¬ ∀ (c : SocketId) (ops : List (Op Nat)), EachStep step Enabled init ops →
      Along step (CallbacksOrdered c) init ops := by
  intro h
  have hops := h firstId [.buildAsyncConnectSocket 3 0, .writable firstId (.accepts 0 0) 111,
    .writable firstId (.accepts 0 0) 0] (by
      refine ⟨⟨trivial, by decide, by decide, by decide⟩, ?_⟩
      rintro _ ⟨⟩
      refine ⟨⟨⟨_, rfl, rfl, by decide⟩, trivial⟩, ?_⟩
      rintro _ ⟨⟩
      exact ⟨⟨⟨_, rfl, rfl, by decide⟩, trivial⟩, fun _ _ => trivial⟩)
  have hordered : CallbacksOrdered firstId _ := ((hops.2 _ rfl).2 _ rfl).2 _ rfl
  exact absurd hordered.1 (by decide)

end Observed

end TcpService

end Brickred
