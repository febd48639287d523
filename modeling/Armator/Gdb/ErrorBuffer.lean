/-
What the scanner does with what it does not understand.

A byte that belongs to no message is kept in a buffer of 1024, and when the
next message begins, or the input ends, or the buffer holds 1023, the
debugger is asked once to send again.  So a stretch of `k` such bytes costs
one request for every 1023 of them, begun or whole, and no index of the
buffer is ever outside it (`scanner_errors`).  On a connection that has been
shut the first of these requests ends the simulator.
-/
import Armator.Gdb.Framing
import Armator.Gdb.Scanner
import Armator.Lib.Outcomes
import Mathlib.Algebra.Order.Floor.Div

namespace Armator

open CText Lexer Outcomes

/-! ## The scanner -/

abbrev MAX_ERROR_SIZE : Nat := 1024

/-- `struct parser_data` -/
structure ParserData where
  gdb : GdbProtocolData
  buffer : Fin MAX_ERROR_SIZE → Byte
  len : Nat

/-- Why the scanner does not go on: its buffer is used outside its bounds,
or a function of the server that it calls does not return. -/
inductive ScannerStop where
  | errorBuffer
  | server (reason : NoReturn)
deriving DecidableEq

/-- A call of the server. -/
def ParserData.call (data : ParserData) (run : Except NoReturn GdbProtocolData) :
    Except ScannerStop ParserData :=
  match run with
  | .ok gdb => .ok { data with gdb := gdb }
  | .error reason => .error (.server reason)

/-- `data->buffer[i] = c` -/
def ParserData.set (data : ParserData) (i : Nat) (c : Byte) : Except ScannerStop ParserData :=
  if h : i < MAX_ERROR_SIZE then
    .ok { data with buffer := Function.update data.buffer ⟨i, h⟩ c }
  else .error .errorBuffer

/-- `handle_error` -/
def handleError (data : ParserData) : Except ScannerStop ParserData :=
  if data.len ≠ 0 then do
    let data ← data.set data.len 0
    let data ← data.call (gdbRequireRetransmission data.gdb)
    return { data with len := 0 }
  else return data

/-- `add_character_to_error` -/
def addCharacterToError (data : ParserData) (c : Byte) : Except ScannerStop ParserData := do
  let data ← if data.len > MAX_ERROR_SIZE - 2 then handleError data else pure data
  let data ← data.set data.len c
  return { data with len := data.len + 1 }

section

variable (h : GdbHost) (turns : Nat) (behind : ParserData → Text)

/-- The call of `gdb_packet_analysis` on a packet; flex ends `yytext` by a
NUL, behind which its buffer goes on. -/
def analysePacket (data : ParserData) (text : Text) : Except ScannerStop ParserData :=
  data.call (gdbPacketAnalysis h turns data.gdb (text ++ 0 :: behind data) text.length)

/-- What flex does with what no rule of the source matches. -/
def echo (data : ParserData) (text : Text) : ParserData :=
  { data with gdb := { data.gdb with
    arm := { data.gdb.arm with stdout := data.gdb.arm.stdout ++ text } } }

/-- The action of a rule. -/
def scannerAction (data : ParserData) : TokenKind × Text → Except ScannerStop ParserData
  | (.ack, _) => handleError data
  | (.nack, _) => do
      let data ← handleError data
      data.call (gdbTransmitPacket data.gdb)
  | (.packet, text) => do
      let data ← handleError data
      analysePacket h turns behind data text
  | (.error, text) => addCharacterToError data (text.headD 0)
  | (.echo, text) => return echo data text

/-- The actions of some tokens, one after the other. -/
def scanTokens (data : ParserData) (tokens : List (TokenKind × Text)) :
    Except ScannerStop ParserData :=
  tokens.foldlM (scannerAction h turns behind) data

/-- `gdb_scanner` on an input, with the rule for its end; what is in the
buffer at first is not known. -/
def gdbScanner (gdb : GdbProtocolData) (buffer : Fin MAX_ERROR_SIZE → Byte) (input : Text) :
    Except ScannerStop ParserData := do
  let data ← scanTokens h turns behind { gdb := gdb, buffer := buffer, len := 0 }
    (tokenise scannerRules input)
  handleError data

end

theorem ScannerStop.server_ne (reason : NoReturn) : ScannerStop.server reason ≠ .errorBuffer :=
  nofun

/-! ## The bounds of the buffer -/

theorem ParserData.set_eq (data : ParserData) {i : Nat} (c : Byte) (hi : i < MAX_ERROR_SIZE) :
    data.set i c = .ok { data with buffer := Function.update data.buffer ⟨i, hi⟩ c } :=
  dif_pos hi

theorem handleError_of_empty {data : ParserData} (hlen : data.len = 0) :
    handleError data = .ok data := by
  unfold handleError
  rw [if_neg (not_not_intro hlen)]
  rfl

theorem handleError_of_pos {data : ParserData} (hlen : data.len < MAX_ERROR_SIZE)
    (hpos : data.len ≠ 0) :
    handleError data
      = (data.call (gdbRequireRetransmission data.gdb)).map fun data' =>
          { data' with buffer := Function.update data.buffer ⟨data.len, hlen⟩ 0, len := 0 } := by
  unfold handleError
  rw [if_pos hpos, data.set_eq 0 hlen]
  show (ParserData.call _ (gdbRequireRetransmission data.gdb) >>= _) = _
  cases gdbRequireRetransmission data.gdb <;> rfl

/-- A buffer with bytes in it is emptied for one request. -/
theorem handleError_spec {data : ParserData} (hlen : data.len < MAX_ERROR_SIZE)
    (hopen : data.gdb.shut = false ∨ data.len = 0) :
    ∃ data', handleError data = .ok data' ∧ data'.len = 0 ∧
      data'.gdb = data.gdb.wrote (List.replicate (min data.len 1) (ch '-')) := by
  rcases Nat.eq_zero_or_pos data.len with hzero | hpos
  · refine ⟨data, handleError_of_empty hzero, hzero, ?_⟩
    rw [hzero, GdbProtocolData.wrote]
    exact congrArg (fun fd => { data.gdb with fd := fd }) (List.append_nil _).symm
  · rw [handleError_of_pos hlen hpos.ne', gdbRequireRetransmission,
      rioWriten_of_open (hopen.resolve_right hpos.ne'), Nat.min_eq_right hpos]
    exact ⟨_, rfl, rfl, rfl⟩

/-- Where the connection has been shut the request cannot be sent. -/
theorem handleError_of_shut {data : ParserData} (hlen : data.len < MAX_ERROR_SIZE)
    (hshut : data.gdb.shut = true) (hpos : data.len ≠ 0) :
    handleError data = .error (.server .connectionShut) := by
  rw [handleError_of_pos hlen hpos, gdbRequireRetransmission,
    rioWriten_of_shut hshut (List.cons_ne_nil _ _)]
  rfl

theorem handleError_cases {data : ParserData} (hlen : data.len < MAX_ERROR_SIZE) :
    (∃ data', handleError data = .ok data' ∧ data'.len = 0 ∧
      data'.gdb = data.gdb.wrote (List.replicate (min data.len 1) (ch '-'))) ∨
    data.gdb.shut = true ∧ data.len ≠ 0 ∧
      handleError data = .error (.server .connectionShut) := by
  by_cases hopen : data.gdb.shut = false ∨ data.len = 0
  · exact .inl (handleError_spec hlen hopen)
  · rw [not_or, Bool.not_eq_false] at hopen
    exact .inr ⟨hopen.1, hopen.2, handleError_of_shut hlen hopen.1 hopen.2⟩

theorem handleError_len {data data' : ParserData} (hlen : data.len < MAX_ERROR_SIZE)
    (hrun : handleError data = .ok data') : data'.len = 0 := by
  rcases handleError_cases hlen with ⟨data'', hrun', hzero, -⟩ | ⟨-, -, hfail⟩
  · obtain rfl := Except.ok.inj (hrun'.symm.trans hrun)
    exact hzero
  · exact nomatch hfail.symm.trans hrun

/-- The state with one byte more in the buffer. -/
def ParserData.push (data : ParserData) (c : Byte) (hlen : data.len < MAX_ERROR_SIZE - 1) :
    ParserData :=
  { data with
    buffer := Function.update data.buffer ⟨data.len, Nat.lt_of_lt_pred hlen⟩ c
    len := data.len + 1 }

@[simp] theorem ParserData.push_len {data : ParserData} {c : Byte}
    {hlen : data.len < MAX_ERROR_SIZE - 1} : (data.push c hlen).len = data.len + 1 := rfl

theorem addCharacterToError_of_room {data : ParserData} (hlen : data.len < MAX_ERROR_SIZE - 1)
    (c : Byte) : addCharacterToError data c = .ok (data.push c hlen) := by
  have hnotfull : ¬data.len > MAX_ERROR_SIZE - 2 := Nat.not_lt_of_le (Nat.le_pred_of_lt hlen)
  unfold addCharacterToError
  rw [if_neg hnotfull]
  show (data.set data.len c >>= _) = _
  rw [data.set_eq c (Nat.lt_of_lt_pred hlen)]
  rfl

theorem addCharacterToError_of_shut {data : ParserData} (hlen : data.len < MAX_ERROR_SIZE)
    (hfull : data.len > MAX_ERROR_SIZE - 2) (hshut : data.gdb.shut = true) (c : Byte) :
    addCharacterToError data c = .error (.server .connectionShut) := by
  have hpos : data.len ≠ 0 := (Nat.zero_lt_of_lt hfull).ne'
  unfold addCharacterToError
  rw [if_pos hfull, handleError_of_shut hlen hshut hpos]
  rfl

theorem addCharacterToError_of_full {data emptied : ParserData}
    (hfull : data.len > MAX_ERROR_SIZE - 2) (hemptied : handleError data = .ok emptied)
    (hlen : emptied.len < MAX_ERROR_SIZE - 1) (c : Byte) :
    addCharacterToError data c = .ok (emptied.push c hlen) := by
  unfold addCharacterToError
  rw [if_pos hfull, hemptied]
  show (emptied.set emptied.len c >>= _) = _
  rw [emptied.set_eq c (Nat.lt_of_lt_pred hlen)]
  rfl

/-- The buffer has not been used outside its bounds, and has room for the
next byte or the NUL. -/
def WithinBuffer (run : Except ScannerStop ParserData) : Prop :=
  ComesTo (fun data => data.len < MAX_ERROR_SIZE) (· ≠ .errorBuffer) run

theorem withinBuffer_handleError {data : ParserData} (hlen : data.len < MAX_ERROR_SIZE) :
    WithinBuffer (handleError data) := by
  rcases handleError_cases hlen with ⟨data', hdata', hempty, -⟩ | ⟨-, -, hfail⟩
  · rw [hdata']
    exact lt_of_eq_of_lt hempty (by decide)
  · rw [hfail]
    exact ScannerStop.server_ne _

theorem withinBuffer_addCharacterToError {data : ParserData}
    (hlen : data.len < MAX_ERROR_SIZE) (c : Byte) :
    WithinBuffer (addCharacterToError data c) := by
  by_cases hfull : data.len > MAX_ERROR_SIZE - 2
  · rcases handleError_cases hlen with ⟨emptied, hemptied, hzero, -⟩ | ⟨hshut, -, -⟩
    · have hempty : emptied.len < MAX_ERROR_SIZE - 1 := lt_of_eq_of_lt hzero (by decide)
      rw [addCharacterToError_of_full hfull hemptied hempty]
      exact Nat.add_lt_of_lt_sub hempty
    · rw [addCharacterToError_of_shut hlen hfull hshut]
      exact ScannerStop.server_ne _
  · have hroom : data.len < MAX_ERROR_SIZE - 1 := Nat.lt_succ_of_le (Nat.le_of_not_lt hfull)
    rw [addCharacterToError_of_room hroom]
    exact Nat.add_lt_of_lt_sub hroom

/-! ## Collecting bytes -/

/-- From `data`, with its buffer empty, to `data'` the buffer has taken in
`bytes` bytes and has been emptied `requests` times, each time when it was
full and one more byte came. -/
structure Collected (data : ParserData) (requests bytes : Nat) (data' : ParserData) : Prop where
  fd_eq : data'.gdb.fd = data.gdb.fd ++ List.replicate requests (ch '-')
  shut_eq : data'.gdb.shut = data.gdb.shut
  bytes_eq : bytes = requests * (MAX_ERROR_SIZE - 1) + data'.len
  len_lt : data'.len < MAX_ERROR_SIZE
  len_pos : 0 < bytes → 0 < data'.len

namespace Collected

variable {data data' : ParserData} {requests bytes : Nat}

theorem start (hlen : data.len = 0) : Collected data 0 0 data where
  fd_eq := (List.append_nil _).symm
  shut_eq := rfl
  bytes_eq := by rw [hlen, Nat.zero_mul]
  len_lt := lt_of_eq_of_lt hlen (by decide)
  len_pos := fun h => absurd h (Nat.lt_irrefl 0)

theorem addCharacterToError (hc : Collected data requests bytes data')
    (hopen : data.gdb.shut = false) (c : Byte) :
    ∃ requests' data'', Armator.addCharacterToError data' c = .ok data'' ∧
      Collected data requests' (bytes + 1) data'' := by
  obtain ⟨hfd, hshut, hbytes, hlt, -⟩ := hc
  by_cases hfull : data'.len > MAX_ERROR_SIZE - 2
  · -- 1023 bytes are there: they are given up, and the buffer begins anew
    have hlen : data'.len = MAX_ERROR_SIZE - 1 := Nat.le_antisymm (Nat.le_pred_of_lt hlt) hfull
    obtain ⟨emptied, hemptied, hzero, hasked⟩ := handleError_spec hlt (.inl (hshut.trans hopen))
    have hempty : emptied.len < MAX_ERROR_SIZE - 1 := lt_of_eq_of_lt hzero (by decide)
    refine ⟨requests + 1, _, addCharacterToError_of_full hfull hemptied hempty c, ?_, ?_, ?_, ?_,
      fun _ => Nat.succ_pos _⟩
    · rw [hlen] at hasked
      rw [List.replicate_add, ← List.append_assoc, ← hfd]
      exact congrArg GdbProtocolData.fd hasked
    · exact (congrArg GdbProtocolData.shut hasked).trans hshut
    · rw [ParserData.push_len, hzero, hbytes, hlen, Nat.succ_mul]
    · rw [ParserData.push_len, hzero]
      decide
  · have hroom : data'.len < MAX_ERROR_SIZE - 1 := Nat.lt_succ_of_le (Nat.le_of_not_lt hfull)
    refine ⟨requests, _, addCharacterToError_of_room hroom c, hfd, hshut, ?_, ?_,
      fun _ => Nat.succ_pos _⟩
    · rw [ParserData.push_len, hbytes, Nat.add_assoc]
    · exact Nat.add_lt_of_lt_sub hroom

theorem echo (hc : Collected data requests bytes data') (text : Text) :
    Collected data requests bytes (Armator.echo data' text) :=
  ⟨hc.fd_eq, hc.shut_eq, hc.bytes_eq, hc.len_lt, hc.len_pos⟩

/-- At the end of a stretch the bytes that are left cost one request more. -/
theorem handleError (hc : Collected data requests bytes data')
    (hopen : data.gdb.shut = false ∨ bytes = 0) :
    ∃ data'', Armator.handleError data' = .ok data'' ∧ data''.len = 0 ∧
      data''.gdb.fd
        = data.gdb.fd ++ List.replicate (bytes ⌈/⌉ (MAX_ERROR_SIZE - 1)) (ch '-') := by
  obtain ⟨hfd, hshut, hbytes, hlt, hpos⟩ := hc
  have hcount : bytes ⌈/⌉ (MAX_ERROR_SIZE - 1) = requests + min data'.len 1 := by
    rw [Nat.ceilDiv_eq_add_pred_div]
    unfold MAX_ERROR_SIZE at *
    omega
  have hopen' : data'.gdb.shut = false ∨ data'.len = 0 := by
    rw [hshut]
    exact hopen.imp_right fun hnone => by omega
  obtain ⟨data'', hdata'', hzero, hasked⟩ := handleError_spec hlt hopen'
  refine ⟨data'', hdata'', hzero, ?_⟩
  rw [hasked, GdbProtocolData.wrote, hfd, hcount, List.replicate_add, List.append_assoc]

end Collected

/-! ## Runs -/

/-- The token is a message of the debugger, and ends a stretch of what is
none. -/
def TokenKind.isMessage : TokenKind → Bool
  | .ack | .nack | .packet => true
  | .error | .echo => false

/-- The bytes that `.` has consumed. -/
def errorBytes (tokens : List (TokenKind × Text)) : Nat :=
  ((tokens.filter fun token => token.1 = .error).map fun token => token.2.length).sum

theorem length_of_error {input text : Text} (h : (.error, text) ∈ tokenise scannerRules input) :
    text.length = 1 := by
  obtain ⟨r, hr, hname, htext⟩ := rule_of_mem_tokenise h
  simp only [scannerRules, List.mem_cons, List.not_mem_nil, or_false] at hr
  rcases hr with rfl | rfl | rfl | rfl | rfl <;> try cases hname
  obtain ⟨c, -, hc⟩ := (anyOf_rmatch_iff ..).mp htext
  rw [← List.length_map (f := yyEc), hc]
  rfl

theorem errorBytes_error {text : Text} (htext : text.length = 1)
    (tokens : List (TokenKind × Text)) :
    errorBytes ((.error, text) :: tokens) = 1 + errorBytes tokens := by
  unfold errorBytes
  rw [List.filter_cons_of_pos (by rfl), List.map_cons, List.sum_cons, htext]

section

variable (h : GdbHost) (turns : Nat) (behind : ParserData → Text)

theorem ParserData.call_ok {data data' : ParserData} {run : Except NoReturn GdbProtocolData}
    (hrun : data.call run = .ok data') :
    ∃ gdb', run = .ok gdb' ∧ data' = { data with gdb := gdb' } := by
  cases run with
  | error reason => cases hrun
  | ok gdb' => exact ⟨gdb', rfl, (Except.ok.inj hrun).symm⟩

/-- The server leaves the buffer alone. -/
theorem ParserData.call_len (data : ParserData) (run : Except NoReturn GdbProtocolData) :
    ComesTo (fun data' => data'.len = data.len) (· ≠ .errorBuffer) (data.call run) := by
  cases run with
  | ok gdb => exact rfl
  | error reason => exact ScannerStop.server_ne _

/-- A message empties the buffer, and leaves it so. -/
theorem scannerAction_message {token : TokenKind × Text} (htoken : token.1.isMessage = true) :
    ∃ next : ParserData → Except ScannerStop ParserData,
      (∀ data, scannerAction h turns behind data token = handleError data >>= next) ∧
      ∀ data, ComesTo (fun data' => data'.len = data.len) (· ≠ .errorBuffer) (next data) := by
  obtain ⟨kind, text⟩ := token
  cases kind with
  | ack => exact ⟨pure, fun data => (bind_pure (handleError data)).symm, fun _ => rfl⟩
  | nack => exact ⟨_, fun _ => rfl, fun data => data.call_len _⟩
  | packet => exact ⟨_, fun _ => rfl, fun data => data.call_len _⟩
  | error => cases htoken
  | echo => cases htoken

theorem withinBuffer_scannerAction {data : ParserData} (hlen : data.len < MAX_ERROR_SIZE)
    (token : TokenKind × Text) : WithinBuffer (scannerAction h turns behind data token) := by
  by_cases htoken : token.1.isMessage = true
  · obtain ⟨next, haction, hnext⟩ := scannerAction_message h turns behind htoken
    rw [haction]
    refine (withinBuffer_handleError hlen).bind fun emptied hemptied => ?_
    exact (hnext emptied).imp fun data' hlen' => lt_of_eq_of_lt hlen' hemptied
  · obtain ⟨kind, text⟩ := token
    cases kind with
    | ack => exact absurd rfl htoken
    | nack => exact absurd rfl htoken
    | packet => exact absurd rfl htoken
    | error => exact withinBuffer_addCharacterToError hlen (text.headD 0)
    | echo => exact hlen

theorem withinBuffer_scanTokens {data : ParserData} (hlen : data.len < MAX_ERROR_SIZE)
    (tokens : List (TokenKind × Text)) :
    WithinBuffer (scanTokens h turns behind data tokens) :=
  comesTo_foldlM hlen fun token _ _ hdata => withinBuffer_scannerAction h turns behind hdata token

/-- After a message the buffer is empty. -/
theorem len_of_message {data data' : ParserData} (hlen : data.len < MAX_ERROR_SIZE)
    {token : TokenKind × Text} (htoken : token.1.isMessage = true)
    (hdata' : scannerAction h turns behind data token = .ok data') : data'.len = 0 := by
  obtain ⟨next, haction, hnext⟩ := scannerAction_message h turns behind htoken
  rw [haction] at hdata'
  cases hemptied : handleError data with
  | error reason =>
      rw [hemptied] at hdata'
      cases hdata'
  | ok emptied =>
      rw [hemptied] at hdata'
      have hend : next emptied = .ok data' := hdata'
      have hsame := hnext emptied
      rw [hend] at hsame
      exact hsame.trans (handleError_len hlen hemptied)

/-- A message finds the buffer emptied or empties it. -/
theorem scannerAction_emptied {data emptied : ParserData}
    (hemptied : handleError data = .ok emptied) (hzero : emptied.len = 0)
    {token : TokenKind × Text} (htoken : token.1.isMessage = true) :
    scannerAction h turns behind data token = scannerAction h turns behind emptied token := by
  obtain ⟨next, haction, -⟩ := scannerAction_message h turns behind htoken
  rw [haction, haction, hemptied, handleError_of_empty hzero]

/-- A stretch without a message is collected. -/
theorem Collected.scanTokens {data data' : ParserData} {requests bytes : Nat}
    (hc : Collected data requests bytes data') {stretch : List (TokenKind × Text)}
    (hopen : data.gdb.shut = false ∨ errorBytes stretch = 0)
    (hstretch : ∀ token ∈ stretch, token.1.isMessage = false)
    (hone : ∀ token ∈ stretch, token.1 = .error → token.2.length = 1) :
    ∃ requests' data'', Armator.scanTokens h turns behind data' stretch = .ok data'' ∧
      Collected data requests' (bytes + errorBytes stretch) data'' := by
  induction stretch generalizing requests bytes data' with
  | nil => exact ⟨requests, data', rfl, hc⟩
  | cons token stretch ih =>
      have hrest : ∀ token ∈ stretch, token.1.isMessage = false :=
        fun token htoken => hstretch token (List.mem_cons_of_mem _ htoken)
      have hones : ∀ token ∈ stretch, token.1 = .error → token.2.length = 1 :=
        fun token htoken => hone token (List.mem_cons_of_mem _ htoken)
      have hkind := hstretch token List.mem_cons_self
      have hlength := hone token List.mem_cons_self
      obtain ⟨kind, text⟩ := token
      cases kind with
      | ack => cases hkind
      | nack => cases hkind
      | packet => cases hkind
      | error =>
          have hsome : errorBytes ((.error, text) :: stretch) ≠ 0 := by
            rw [errorBytes_error (hlength rfl)]
            omega
          have hopen' := hopen.resolve_right hsome
          obtain ⟨requests₁, data₁, hadd, hc₁⟩ := hc.addCharacterToError hopen' (text.headD 0)
          obtain ⟨requests₂, data₂, hscan, hc₂⟩ := ih hc₁ (.inl hopen') hrest hones
          refine ⟨requests₂, data₂, ?_, ?_⟩
          · unfold Armator.scanTokens
            rw [List.foldlM_cons]
            show (Armator.addCharacterToError data' (text.headD 0) >>= _) = _
            rw [hadd]
            exact hscan
          · rwa [errorBytes_error (hlength rfl), ← Nat.add_assoc]
      | echo => exact ih (hc.echo text) hopen hrest hones

/-- On a connection that has been shut a stretch with bytes in it ends the
simulator, when the buffer is full or at the end of the stretch. -/
theorem scanTokens_of_shut {data : ParserData} (hlen : data.len < MAX_ERROR_SIZE)
    (hshut : data.gdb.shut = true) {stretch : List (TokenKind × Text)}
    (hpos : data.len + errorBytes stretch ≠ 0)
    (hstretch : ∀ token ∈ stretch, token.1.isMessage = false)
    (hone : ∀ token ∈ stretch, token.1 = .error → token.2.length = 1) :
    (Armator.scanTokens h turns behind data stretch >>= handleError)
      = .error (.server .connectionShut) := by
  induction stretch generalizing data with
  | nil => exact handleError_of_shut hlen hshut hpos
  | cons token stretch ih =>
      have hrest : ∀ token ∈ stretch, token.1.isMessage = false :=
        fun token htoken => hstretch token (List.mem_cons_of_mem _ htoken)
      have hones : ∀ token ∈ stretch, token.1 = .error → token.2.length = 1 :=
        fun token htoken => hone token (List.mem_cons_of_mem _ htoken)
      have hkind := hstretch token List.mem_cons_self
      obtain ⟨kind, text⟩ := token
      cases kind with
      | ack => cases hkind
      | nack => cases hkind
      | packet => cases hkind
      | error =>
          unfold Armator.scanTokens
          rw [List.foldlM_cons]
          show ((addCharacterToError data (text.headD 0) >>= _) >>= _) = _
          by_cases hfull : data.len > MAX_ERROR_SIZE - 2
          · rw [addCharacterToError_of_shut hlen hfull hshut]
            rfl
          · have hroom : data.len < MAX_ERROR_SIZE - 1 :=
              Nat.lt_succ_of_le (Nat.le_of_not_lt hfull)
            rw [addCharacterToError_of_room hroom]
            refine ih (Nat.add_lt_of_lt_sub hroom) hshut ?_ hrest hones
            rw [ParserData.push_len]
            omega
      | echo => exact ih hlen hshut hpos hrest hones

/-- Where a stretch begins the buffer is empty. -/
theorem len_of_boundary {data data' : ParserData} (hlen : data.len = 0)
    {tokens : List (TokenKind × Text)}
    (hlast : ∀ token ∈ tokens.getLast?, token.1.isMessage = true)
    (hdata' : Armator.scanTokens h turns behind data tokens = .ok data') : data'.len = 0 := by
  rcases List.eq_nil_or_concat' tokens with rfl | ⟨tokens, token, rfl⟩
  · obtain rfl := Except.ok.inj hdata'
    exact hlen
  · have hlt : data.len < MAX_ERROR_SIZE := lt_of_eq_of_lt hlen (by decide)
    have hwithin := withinBuffer_scanTokens h turns behind hlt tokens
    unfold Armator.scanTokens at hdata' hwithin
    rw [List.foldlM_append] at hdata'
    cases hbefore : tokens.foldlM (scannerAction h turns behind) data with
    | error reason =>
        rw [hbefore] at hdata'
        cases hdata'
    | ok data₁ =>
        rw [hbefore] at hdata' hwithin
        have hstep : (scannerAction h turns behind data₁ token >>= pure) = .ok data' := hdata'
        rw [bind_pure] at hstep
        exact len_of_message h turns behind hwithin (hlast token (by simp)) hstep

/-- What follows a stretch goes on from the emptied buffer. -/
theorem scanTokens_emptied {data emptied : ParserData}
    (hemptied : handleError data = .ok emptied) (hzero : emptied.len = 0)
    {tokens : List (TokenKind × Text)}
    (hfirst : ∀ token ∈ tokens.head?, token.1.isMessage = true) :
    (Armator.scanTokens h turns behind data tokens >>= handleError)
      = Armator.scanTokens h turns behind emptied tokens >>= handleError := by
  cases tokens with
  | nil =>
      show handleError data = handleError emptied
      rw [hemptied, handleError_of_empty hzero]
  | cons token tokens =>
      have htoken := hfirst token rfl
      unfold Armator.scanTokens
      rw [List.foldlM_cons, List.foldlM_cons,
        scannerAction_emptied h turns behind hemptied hzero htoken]

/-- Where a stretch cannot be given up, nothing that follows it is reached. -/
theorem scanTokens_stopped {data : ParserData} {stretch after : List (TokenKind × Text)}
    {reason : ScannerStop}
    (hstop : (Armator.scanTokens h turns behind data stretch >>= handleError) = .error reason)
    (hfirst : ∀ token ∈ after.head?, token.1.isMessage = true) :
    (Armator.scanTokens h turns behind data (stretch ++ after) >>= handleError)
      = .error reason := by
  unfold Armator.scanTokens at hstop ⊢
  rw [List.foldlM_append]
  cases hscan : stretch.foldlM (scannerAction h turns behind) data with
  | error e =>
      rw [hscan] at hstop
      exact hstop
  | ok data₁ =>
      rw [hscan] at hstop
      have hfail : handleError data₁ = .error reason := hstop
      cases after with
      | nil => exact hfail
      | cons token after =>
          obtain ⟨next, haction, -⟩ := scannerAction_message h turns behind (hfirst token rfl)
          show ((token :: after).foldlM _ data₁ >>= _) = _
          rw [List.foldlM_cons, haction, hfail]
          rfl

/-- The buffer is never used outside its bounds, at whatever token the
scanner is; and a stretch between two messages, or before the first or behind
the last, costs one request for every 1023 bytes of it, begun or whole, from
which the scanner goes on with the buffer empty.  If a `k` has shut the
connection, a stretch with such bytes in it ends the simulator instead. -/
theorem scanner_errors (gdb : GdbProtocolData) (buffer : Fin MAX_ERROR_SIZE → Byte)
    (input : Text) :
    WithinBuffer (gdbScanner h turns behind gdb buffer input) ∧
    (∀ tokens, tokens <+: tokenise scannerRules input →
      WithinBuffer (scanTokens h turns behind { gdb := gdb, buffer := buffer, len := 0 } tokens)) ∧
    ∀ before stretch after data,
      tokenise scannerRules input = before ++ (stretch ++ after) →
      (∀ token ∈ before.getLast?, token.1.isMessage = true) →
      (∀ token ∈ stretch, token.1.isMessage = false) →
      (∀ token ∈ after.head?, token.1.isMessage = true) →
      scanTokens h turns behind { gdb := gdb, buffer := buffer, len := 0 } before = .ok data →
      (data.gdb.shut = false ∨ errorBytes stretch = 0 →
        ∃ data', (scanTokens h turns behind data stretch >>= handleError) = .ok data' ∧
          data'.len = 0 ∧
          data'.gdb.fd = data.gdb.fd
            ++ List.replicate (errorBytes stretch ⌈/⌉ (MAX_ERROR_SIZE - 1)) (ch '-') ∧
          gdbScanner h turns behind gdb buffer input
            = scanTokens h turns behind data' after >>= handleError) ∧
      (data.gdb.shut = true → errorBytes stretch ≠ 0 →
        gdbScanner h turns behind gdb buffer input = .error (.server .connectionShut)) := by
  have hstart : (0 : Nat) < MAX_ERROR_SIZE := by decide
  refine ⟨?_, fun tokens _ => withinBuffer_scanTokens h turns behind hstart tokens, ?_⟩
  · exact (withinBuffer_scanTokens h turns behind hstart _).bind
      fun _ hdata => withinBuffer_handleError hdata
  · intro before stretch after data htokens hlast hstretch hfirst hbefore
    have hzero := len_of_boundary h turns behind rfl hlast hbefore
    have hone : ∀ token ∈ stretch, token.1 = .error → token.2.length = 1 := by
      rintro ⟨kind, text⟩ htoken rfl
      have hmem : (.error, text) ∈ tokenise scannerRules input := by
        rw [htokens]
        exact List.mem_append_right _ (List.mem_append_left _ htoken)
      exact length_of_error hmem
    have hscanner : gdbScanner h turns behind gdb buffer input
        = scanTokens h turns behind data (stretch ++ after) >>= handleError := by
      unfold gdbScanner
      unfold scanTokens at hbefore ⊢
      rw [htokens, List.foldlM_append, hbefore]
      rfl
    rw [hscanner]
    refine ⟨fun hopen => ?_, fun hshut hsome => ?_⟩
    · obtain ⟨requests, data₁, hscan, hcollected⟩ :=
        (Collected.start hzero).scanTokens h turns behind hopen hstretch hone
      rw [Nat.zero_add] at hcollected
      obtain ⟨data', hend, hempty, hfd⟩ := hcollected.handleError hopen
      refine ⟨data', ?_, hempty, hfd, ?_⟩
      · rw [hscan]
        exact hend
      · rw [← scanTokens_emptied h turns behind hend hempty hfirst]
        unfold scanTokens at hscan ⊢
        rw [List.foldlM_append, hscan]
        rfl
    · refine scanTokens_stopped h turns behind ?_ hfirst
      refine scanTokens_of_shut h turns behind (lt_of_eq_of_lt hzero hstart) hshut ?_ hstretch hone
      rwa [hzero, Nat.zero_add]

end

/-- Two bytes that belong to no message, a newline between them, and `+`. -/
def garbageInput : Text := bytes "a\nb+"

theorem tokenise_garbageInput :
    tokenise scannerRules garbageInput
      = [(.error, bytes "a"), (.echo, bytes "\n"), (.error, bytes "b"), (.ack, bytes "+")] := by
  have ha : nextToken scannerRules (bytes "a" ++ bytes "\nb+") = some (.error, bytes "a") := by
    decide +kernel
  have hnewline : nextToken scannerRules (bytes "\n" ++ bytes "b+")
      = some (.echo, bytes "\n") := by
    decide +kernel
  have hb : nextToken scannerRules (bytes "b" ++ bytes "+") = some (.error, bytes "b") := by
    decide +kernel
  have hack : nextToken scannerRules (bytes "+" ++ []) = some (.ack, bytes "+") := by
    decide +kernel
  rw [tokenise_of_nextToken ha (by rfl), tokenise_of_nextToken hnewline (by rfl),
    tokenise_of_nextToken hb (by rfl), tokenise_of_nextToken hack (by rfl), tokenise_nil]

theorem scanner_errors_garbageInput :
    (∃ data', (scanTokens x86GdbHost 1 (fun _ => [])
          { gdb := holdingOk, buffer := fun _ => 0, len := 0 }
          [(.error, bytes "a"), (.echo, bytes "\n"), (.error, bytes "b")] >>= handleError)
        = .ok data' ∧
      data'.len = 0 ∧
      data'.gdb.fd = holdingOk.fd ++ [ch '-'] ∧
      gdbScanner x86GdbHost 1 (fun _ => []) holdingOk (fun _ => 0) garbageInput
        = scanTokens x86GdbHost 1 (fun _ => []) data' [(.ack, bytes "+")] >>= handleError) ∧
    gdbScanner x86GdbHost 1 (fun _ => []) { holdingOk with shut := true } (fun _ => 0)
      garbageInput = .error (.server .connectionShut) := by
  have hscanner := fun gdb => (scanner_errors x86GdbHost 1 (fun _ => []) gdb (fun _ => 0)
    garbageInput).2.2 [] [(.error, bytes "a"), (.echo, bytes "\n"), (.error, bytes "b")]
    [(.ack, bytes "+")] _ tokenise_garbageInput (fun _ hmem => nomatch hmem) (by decide)
    (fun _ hmem => Option.some.inj hmem ▸ rfl) rfl
  exact ⟨(hscanner holdingOk).1 (.inl rfl),
    (hscanner { holdingOk with shut := true }).2 rfl (by decide)⟩

end Armator
