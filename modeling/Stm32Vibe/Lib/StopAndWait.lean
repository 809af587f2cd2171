-- A sender that waits for the reply to each request before it sends the next,
-- over two FIFO lines that lose, double and damage what they carry. A sender
-- that has returned leaves a receiver that has taken every request.
import Mathlib

namespace stop_and_wait

/-! ## The lines -/

section
variable {M : Type}

/-- One fault of a line: a message is lost, doubled in its place, or damaged. -/
inductive Fault (Damaged : M → Prop) : List M → List M → Prop
  | lose (message : M) (rest : List M) : Fault Damaged (message :: rest) rest
  | double (message : M) (rest : List M) :
      Fault Damaged (message :: rest) (message :: message :: rest)
  | damage (message : M) {other : M} (rest : List M) (damaged : Damaged other) :
      Fault Damaged (message :: rest) (other :: rest)
  | later (message : M) {line next : List M} (fault : Fault Damaged line next) :
      Fault Damaged (message :: line) (message :: next)

/-- The messages of the line before a place have the one property, and the
messages after it the other. -/
inductive Parts (First Second : M → Prop) : List M → Prop
  | second {line : List M} (all : ∀ message ∈ line, Second message) : Parts First Second line
  | first {message : M} {line : List M} (first : First message)
      (rest : Parts First Second line) : Parts First Second (message :: line)

variable {Damaged First Second : M → Prop} {line next : List M}

/-- What every damaged message has too, every message of a line keeps. -/
theorem fault_all (fault : Fault Damaged line next)
    (hd : ∀ message, Damaged message → First message)
    (h : ∀ message ∈ line, First message) : ∀ message ∈ next, First message := by
  induction fault with
  | lose message rest => exact fun m hm => h m (List.mem_cons_of_mem _ hm)
  | double message rest =>
    simp only [List.mem_cons, forall_eq_or_imp] at h ⊢
    exact ⟨h.1, h.1, h.2⟩
  | damage message rest damaged =>
    simp only [List.mem_cons, forall_eq_or_imp] at h ⊢
    exact ⟨hd _ damaged, h.2⟩
  | later message fault ih =>
    simp only [List.mem_cons, forall_eq_or_imp] at h ⊢
    exact ⟨h.1, ih h.2⟩

theorem fault_parts (fault : Fault Damaged line next)
    (hfirst : ∀ message, Damaged message → First message)
    (hsecond : ∀ message, Damaged message → Second message)
    (h : Parts First Second line) : Parts First Second next := by
  induction fault with
  | lose message rest =>
    cases h with
    | second all => exact .second fun m hm => all m (List.mem_cons_of_mem _ hm)
    | first first rest => exact rest
  | double message rest =>
    cases h with
    | second all => exact .second (fault_all (.double message rest) hsecond all)
    | first first rest => exact .first first (.first first rest)
  | damage message rest damaged =>
    cases h with
    | second all => exact .second (fault_all (.damage message rest damaged) hsecond all)
    | first first rest => exact .first (hfirst _ damaged) rest
  | later message fault ih =>
    cases h with
    | second all => exact .second (fault_all (.later message fault) hsecond all)
    | first first rest => exact .first first (ih rest)

/-- One message of the second kind behind messages of the first. -/
theorem parts_concat (h : ∀ message ∈ line, First message) {last : M} (hl : Second last) :
    Parts First Second (line ++ [last]) := by
  induction line with
  | nil =>
    apply Parts.second
    simpa using hl
  | cons message line ih =>
    simp only [List.mem_cons, forall_eq_or_imp] at h
    exact .first h.1 (ih h.2)

end

/-! ## The two parties -/

section
variable {Q M R S E : Type}

/-- What the parties do with a request: the sender puts it on the wire, the
receiver answers the message or not, and the sender checks the reply. -/
structure Protocol (Q M R S E : Type) where
  wire : Q → M
  answer : M → S → Option R × S
  check : Q → R → Except E Unit
  DamagedRequest : M → Prop
  DamagedReply : R → Prop

inductive Sender (Q E : Type) where
  /-- The request is sent. The rest comes after its reply. -/
  | Waiting (request : Q) (rest : List Q)
  | Returned
  | Raised (error : E)

structure Link (Q M R S E : Type) where
  sender : Sender Q E
  requests : List M
  replies : List R
  receiver : S

variable (protocol : Protocol Q M R S E)

/-- The next request goes out, or the sender returns. -/
def send (script : List Q) (link : Link Q M R S E) : Link Q M R S E :=
  match script with
  | [] => { link with sender := .Returned }
  | request :: rest =>
    { link with
      sender := .Waiting request rest
      requests := link.requests ++ [protocol.wire request] }

/-- The sender starts its script over lines that are empty. -/
def start (script : List Q) (receiver : S) : Link Q M R S E :=
  send protocol script { sender := .Returned, requests := [], replies := [], receiver }

/-- One step of a line or of a party. -/
inductive Step (link : Link Q M R S E) : Link Q M R S E → Prop
  | request_fault {requests : List M}
      (fault : Fault protocol.DamagedRequest link.requests requests) :
      Step link { link with requests }
  | reply_fault {replies : List R} (fault : Fault protocol.DamagedReply link.replies replies) :
      Step link { link with replies }
  | answer {message : M} {requests : List M} (first : link.requests = message :: requests) :
      Step link
        { link with
          requests
          replies := link.replies ++ (protocol.answer message link.receiver).1.toList
          receiver := (protocol.answer message link.receiver).2 }
  | accept {request : Q} {rest : List Q} {reply : R} {replies : List R}
      (waiting : link.sender = .Waiting request rest) (first : link.replies = reply :: replies)
      (checked : protocol.check request reply = .ok ()) :
      Step link (send protocol rest { link with replies })
  | reject {request : Q} {rest : List Q} {reply : R} {replies : List R} {error : E}
      (waiting : link.sender = .Waiting request rest) (first : link.replies = reply :: replies)
      (checked : protocol.check request reply = .error error) :
      Step link { link with replies, sender := .Raised error }
  | timeout {request : Q} {rest : List Q} (error : E)
      (waiting : link.sender = .Waiting request rest) :
      Step link { link with sender := .Raised error }

/-- Any steps in any order. -/
abbrev Run : Link Q M R S E → Link Q M R S E → Prop := Relation.ReflTransGen (Step protocol)

/-! ## The laws of a script -/

/-- The stages that the requests of a script lead the receiver through. -/
structure Laws (script : List Q) (stage : Nat → S → Prop) : Prop where
  /-- A request leads to the next stage, or the receiver stays and does not accept it. -/
  leads {i : Nat} {request : Q} (h : script[i]? = some request) {receiver : S}
    (hs : stage i receiver) :
    stage (i + 1) (protocol.answer (protocol.wire request) receiver).2 ∨
      (stage i (protocol.answer (protocol.wire request) receiver).2 ∧
        ∀ reply ∈ (protocol.answer (protocol.wire request) receiver).1,
          protocol.check request reply ≠ .ok ())
  /-- The same request again keeps the stage. -/
  keeps {i : Nat} {request : Q} (h : script[i]? = some request) {receiver : S}
    (hs : stage (i + 1) receiver) :
    stage (i + 1) (protocol.answer (protocol.wire request) receiver).2
  /-- The reply to a request is none to a later one. -/
  later {i j : Nat} {request other : Q} (h : script[i]? = some request)
    (h' : script[j]? = some other) (hlt : i < j) (receiver : S) :
    ∀ reply ∈ (protocol.answer (protocol.wire request) receiver).1,
      protocol.check other reply ≠ .ok ()
  damaged {i : Nat} {message : M} (h : protocol.DamagedRequest message) {receiver : S}
    (hs : stage i receiver) : stage i (protocol.answer message receiver).2
  damaged_answer {message : M} (h : protocol.DamagedRequest message) (receiver : S) :
    ∀ reply ∈ (protocol.answer message receiver).1, ∀ request ∈ script,
      protocol.check request reply ≠ .ok ()
  damaged_reply {reply : R} (h : protocol.DamagedReply reply) :
    ∀ request ∈ script, protocol.check request reply ≠ .ok ()

variable (script : List Q) (stage : Nat → S → Prop)

/-- The message is damaged, or carries the last of the first `i` requests. -/
def Repeats (i : Nat) (message : M) : Prop :=
  protocol.DamagedRequest message ∨
    ∃ j request, i = j + 1 ∧ script[j]? = some request ∧ message = protocol.wire request

/-- The reply passes the check of no request from `i` on. -/
def Spent (i : Nat) (reply : R) : Prop :=
  ∀ j request, i ≤ j → script[j]? = some request → protocol.check request reply ≠ .ok ()

/-- Where the receiver and the lines are for each state of the sender. -/
inductive Invariant (link : Link Q M R S E) : Prop
  /-- The request may still be on its way. -/
  | asked {request : Q} {rest : List Q} {i : Nat}
      (waiting : link.sender = .Waiting request rest) (position : script.drop i = request :: rest)
      (before : stage i link.receiver)
      (requests : Parts (Repeats protocol script i) (Repeats protocol script (i + 1)) link.requests)
      (replies : ∀ reply ∈ link.replies, Spent protocol script i reply)
  /-- The receiver has taken the request. -/
  | taken {request : Q} {rest : List Q} {i : Nat}
      (waiting : link.sender = .Waiting request rest) (position : script.drop i = request :: rest)
      (after : stage (i + 1) link.receiver)
      (requests : ∀ message ∈ link.requests, Repeats protocol script (i + 1) message)
      (replies : ∀ reply ∈ link.replies, Spent protocol script (i + 1) reply)
  | returned (returned : link.sender = .Returned) (all : stage script.length link.receiver)
      (requests : ∀ message ∈ link.requests, Repeats protocol script script.length message)
  | raised {error : E} (raised : link.sender = .Raised error)

/-! ## Every step keeps the invariant -/

variable {protocol script stage} {link next : Link Q M R S E}

theorem repeats_damaged (i : Nat) (message : M) (h : protocol.DamagedRequest message) :
    Repeats protocol script i message := Or.inl h

theorem repeats_wire {i : Nat} {request : Q} (h : script[i]? = some request) :
    Repeats protocol script (i + 1) (protocol.wire request) :=
  Or.inr ⟨i, request, rfl, h, rfl⟩

theorem spent_mono {i j : Nat} (hij : i ≤ j) {reply : R} (h : Spent protocol script i reply) :
    Spent protocol script j reply :=
  fun k request hk => h k request (Nat.le_trans hij hk)

/-- The position of a sender that waits. -/
theorem drop_position {i : Nat} {request : Q} {rest : List Q}
    (h : script.drop i = request :: rest) :
    script[i]? = some request ∧ script.drop (i + 1) = rest := by
  constructor
  · rw [← List.head?_drop, h]
    rfl
  · rw [← List.tail_drop, h]
    rfl

/-- The lines after an answer, if there is one. -/
theorem forall_append_answer {P : R → Prop} {replies : List R} {reply : Option R}
    (h : ∀ r ∈ replies, P r) (h' : ∀ r ∈ reply, P r) : ∀ r ∈ replies ++ reply.toList, P r := by
  intro r hr
  rcases List.mem_append.mp hr with hr | hr
  · exact h r hr
  · exact h' r (Option.mem_toList.mp hr)

theorem invariant_request_fault (h : Invariant protocol script stage link) {requests : List M}
    (fault : Fault protocol.DamagedRequest link.requests requests) :
    Invariant protocol script stage { link with requests } := by
  have hd := @repeats_damaged _ _ _ _ _ protocol script
  cases h with
  | asked waiting position before hrequests replies =>
    exact .asked waiting position before (fault_parts fault (hd _) (hd _) hrequests) replies
  | taken waiting position after hrequests replies =>
    exact .taken waiting position after (fault_all fault (hd _) hrequests) replies
  | returned returned all hrequests =>
    exact .returned returned all (fault_all fault (hd _) hrequests)
  | raised raised => exact .raised raised

/-- An accepted reply says that the receiver has taken the request. -/
theorem invariant_accept (h : Invariant protocol script stage link) {request : Q} {rest : List Q}
    {reply : R} {replies : List R} (waiting : link.sender = .Waiting request rest)
    (first : link.replies = reply :: replies) (checked : protocol.check request reply = .ok ()) :
    Invariant protocol script stage (send protocol rest { link with replies }) := by
  cases h with
  | @asked request' rest' i waiting' position before requests hreplies =>
    obtain ⟨rfl, rfl⟩ : request = request' ∧ rest = rest' := by
      simpa using waiting.symm.trans waiting'
    rw [first] at hreplies
    exact absurd checked
      (hreplies reply (List.mem_cons_self ..) i request (Nat.le_refl i) (drop_position position).1)
  | @taken request' rest' i waiting' position after requests hreplies =>
    obtain ⟨rfl, rfl⟩ : request = request' ∧ rest = rest' := by
      simpa using waiting.symm.trans waiting'
    rw [first] at hreplies
    have hrest := (drop_position position).2
    have hspent : ∀ r ∈ replies, Spent protocol script (i + 1) r :=
      fun r hr => hreplies r (List.mem_cons_of_mem _ hr)
    cases rest with
    | nil =>
      have hlength : script.length = i + 1 := by
        have hlen := congrArg List.length position
        rw [List.length_drop, List.length_singleton] at hlen
        omega
      exact .returned rfl (by rw [hlength]; exact after) (by rw [hlength]; exact requests)
    | cons request' rest' =>
      exact .asked rfl hrest after
        (parts_concat requests (repeats_wire (drop_position hrest).1)) hspent
  | returned returned _ _ => cases waiting.symm.trans returned
  | raised raised => cases waiting.symm.trans raised

theorem invariant_start {receiver : S} (hs : stage 0 receiver) :
    Invariant protocol script stage (start protocol script receiver) := by
  cases script with
  | nil => exact .returned rfl hs nofun
  | cons request rest =>
    exact .asked rfl rfl hs (parts_concat nofun (repeats_wire rfl)) nofun

/-- A sender that has raised an error sends no more. -/
theorem raised_stays {error : E} (run : Run protocol link next)
    (raised : link.sender = .Raised error) : next.sender = .Raised error := by
  induction run with
  | refl => exact raised
  | tail _ step ih =>
    cases step with
    | request_fault fault => exact ih
    | reply_fault fault => exact ih
    | answer first => exact ih
    | accept waiting _ _ => cases waiting.symm.trans ih
    | reject waiting _ _ => cases waiting.symm.trans ih
    | timeout _ waiting => cases waiting.symm.trans ih

section
variable (laws : Laws protocol script stage)
include laws

theorem spent_damaged (i : Nat) (reply : R) (h : protocol.DamagedReply reply) :
    Spent protocol script i reply :=
  fun _ request _ hrequest => laws.damaged_reply h request (List.mem_of_getElem? hrequest)

/-- The reply to a request is spent once the sender has gone on. -/
theorem answer_spent {i : Nat} {request : Q} (h : script[i]? = some request) (receiver : S) :
    ∀ reply ∈ (protocol.answer (protocol.wire request) receiver).1,
      Spent protocol script (i + 1) reply :=
  fun reply hreply _ _ hk hother => laws.later h hother hk receiver reply hreply

/-- A message that is not new keeps the stage, and its reply is spent. -/
theorem answer_repeated {i : Nat} {message : M} (h : Repeats protocol script i message)
    {receiver : S} (hs : stage i receiver) :
    stage i (protocol.answer message receiver).2 ∧
      ∀ reply ∈ (protocol.answer message receiver).1, Spent protocol script i reply := by
  rcases h with hd | ⟨j, request, rfl, hrequest, rfl⟩
  · refine ⟨laws.damaged hd hs, ?_⟩
    intro reply hreply k other _ hother
    exact laws.damaged_answer hd receiver reply hreply other (List.mem_of_getElem? hother)
  · exact ⟨laws.keeps hrequest hs, answer_spent laws hrequest receiver⟩

/-- The request that the sender waits for is taken, or refused with a spent reply. -/
theorem answer_new {i : Nat} {request : Q} (h : script[i]? = some request) {receiver : S}
    (hs : stage i receiver) :
    stage (i + 1) (protocol.answer (protocol.wire request) receiver).2 ∨
      (stage i (protocol.answer (protocol.wire request) receiver).2 ∧
        ∀ reply ∈ (protocol.answer (protocol.wire request) receiver).1,
          Spent protocol script i reply) := by
  rcases laws.leads h hs with hnext | ⟨hstays, hrefused⟩
  · exact Or.inl hnext
  · refine Or.inr ⟨hstays, ?_⟩
    intro reply hreply k other hk hother
    rcases Nat.eq_or_lt_of_le hk with rfl | hlt
    · obtain rfl : request = other := Option.some.inj (h.symm.trans hother)
      exact hrefused reply hreply
    · exact answer_spent laws h receiver reply hreply k other hlt hother

theorem invariant_reply_fault (h : Invariant protocol script stage link) {replies : List R}
    (fault : Fault protocol.DamagedReply link.replies replies) :
    Invariant protocol script stage { link with replies } := by
  cases h with
  | asked waiting position before requests hreplies =>
    exact .asked waiting position before requests (fault_all fault (spent_damaged laws _) hreplies)
  | taken waiting position after requests hreplies =>
    exact .taken waiting position after requests (fault_all fault (spent_damaged laws _) hreplies)
  | returned returned all requests => exact .returned returned all requests
  | raised raised => exact .raised raised

theorem invariant_answer (h : Invariant protocol script stage link) {message : M}
    {requests : List M} (first : link.requests = message :: requests) :
    Invariant protocol script stage
      { link with
        requests
        replies := link.replies ++ (protocol.answer message link.receiver).1.toList
        receiver := (protocol.answer message link.receiver).2 } := by
  cases h with
  | @asked request rest i waiting position before hrequests replies =>
    rw [first] at hrequests
    cases hrequests with
    | first hrepeats hrest =>
      obtain ⟨hstage, hspent⟩ := answer_repeated laws hrepeats before
      exact .asked waiting position hstage hrest (forall_append_answer replies hspent)
    | second hall =>
      have hrest : Parts (Repeats protocol script i) (Repeats protocol script (i + 1)) requests :=
        .second fun m hm => hall m (List.mem_cons_of_mem _ hm)
      rcases hall message (List.mem_cons_self ..) with hd | ⟨j, other, hj, hother, rfl⟩
      · obtain ⟨hstage, hspent⟩ := answer_repeated laws (repeats_damaged i message hd) before
        exact .asked waiting position hstage hrest (forall_append_answer replies hspent)
      · -- the message is the request itself
        obtain rfl : i = j := Nat.succ.inj hj
        obtain rfl : request = other :=
          Option.some.inj ((drop_position position).1.symm.trans hother)
        rcases answer_new laws hother before with hstage | ⟨hstage, hspent⟩
        · refine .taken waiting position hstage (fun m hm => hall m (List.mem_cons_of_mem _ hm)) ?_
          exact forall_append_answer (fun r hr => spent_mono (Nat.le_succ i) (replies r hr))
            (answer_spent laws hother link.receiver)
        · exact .asked waiting position hstage hrest (forall_append_answer replies hspent)
  | taken waiting position after hrequests replies =>
    rw [first] at hrequests
    obtain ⟨hstage, hspent⟩ := answer_repeated laws (hrequests message (List.mem_cons_self ..)) after
    exact .taken waiting position hstage (fun m hm => hrequests m (List.mem_cons_of_mem _ hm))
      (forall_append_answer replies hspent)
  | returned returned all hrequests =>
    rw [first] at hrequests
    obtain ⟨hstage, -⟩ := answer_repeated laws (hrequests message (List.mem_cons_self ..)) all
    exact .returned returned hstage fun m hm => hrequests m (List.mem_cons_of_mem _ hm)
  | raised raised => exact .raised raised

theorem invariant_step (h : Invariant protocol script stage link) (step : Step protocol link next) :
    Invariant protocol script stage next := by
  cases step with
  | request_fault fault => exact invariant_request_fault h fault
  | reply_fault fault => exact invariant_reply_fault laws h fault
  | answer first => exact invariant_answer laws h first
  | accept waiting first checked => exact invariant_accept h waiting first checked
  | reject waiting first checked => exact .raised rfl
  | timeout error waiting => exact .raised rfl

theorem invariant_run {receiver : S} (hs : stage 0 receiver)
    (run : Run protocol (start protocol script receiver) link) :
    Invariant protocol script stage link := by
  induction run with
  | refl => exact invariant_start hs
  | tail _ step ih => exact invariant_step laws ih step

/-- Whatever the lines did: when the sender has returned, the receiver has taken
the whole script. -/
theorem returned_stage {receiver : S} (hs : stage 0 receiver)
    (run : Run protocol (start protocol script receiver) link)
    (returned : link.sender = .Returned) : stage script.length link.receiver := by
  cases invariant_run laws hs run with
  | asked waiting _ _ _ _ => cases returned.symm.trans waiting
  | taken waiting _ _ _ _ => cases returned.symm.trans waiting
  | returned _ all _ => exact all
  | raised raised => cases returned.symm.trans raised

end

/-! ## Lines without faults -/

variable (protocol)

/-- The receiver answers each request of a script in turn, and every reply passes its check. -/
inductive Serves : List Q → S → S → Prop
  | nil (receiver : S) : Serves [] receiver receiver
  | cons {request : Q} {rest : List Q} {receiver last : S} {reply : R}
      (answered : (protocol.answer (protocol.wire request) receiver).1 = some reply)
      (checked : protocol.check request reply = .ok ())
      (serves : Serves rest (protocol.answer (protocol.wire request) receiver).2 last) :
      Serves (request :: rest) receiver last

variable {protocol}

/-- Over lines without faults the sender returns. -/
theorem serves_run {receiver last : S} (h : Serves protocol script receiver last) :
    Run protocol (start protocol script receiver)
      { sender := .Returned, requests := [], replies := [], receiver := last } := by
  induction h with
  | nil receiver => exact .refl
  | @cons request rest receiver last reply answered checked serves ih =>
    have hanswer :=
      @Step.answer _ _ _ _ _ protocol (start protocol (request :: rest) receiver) _ _ rfl
    dsimp only [start, send] at hanswer
    rw [answered] at hanswer
    exact .head hanswer (.head (.accept rfl rfl checked) ih)

end

end stop_and_wait
