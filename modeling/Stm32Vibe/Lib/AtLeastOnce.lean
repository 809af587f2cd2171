-- Delivery at least once: a sender repeats each of its messages one or more
-- times in a row. When every message leads from one condition to the next, and
-- keeps the next when it comes again, the repetitions are harmless.
import Mathlib

namespace at_least_once

variable {S A B R : Type} (step : B → S → R × S) (ok : R)

/-! ## Rows of deliveries -/

/-- The replies to a row of deliveries, and the state after it. -/
def runAll : List B → S → List R × S
  | [], state => ([], state)
  | delivery :: rest, state =>
    let (reply, next) := step delivery state
    let (replies, last) := runAll rest next
    (reply :: replies, last)

theorem runAll_append (first second : List B) (state : S) :
    runAll step (first ++ second) state =
      ((runAll step first state).1 ++ (runAll step second (runAll step first state).2).1,
        (runAll step second (runAll step first state).2).2) := by
  induction first generalizing state with
  | nil => rfl
  | cons delivery rest ih =>
    simp only [List.cons_append, runAll, ih]

/-- Every reply of the row is `ok`, and the condition holds after it. -/
def RunsTo (deliveries : List B) (state : S) (post : S → Prop) : Prop :=
  (∀ reply ∈ (runAll step deliveries state).1, reply = ok) ∧ post (runAll step deliveries state).2

/-- From a state with the one condition, the delivery is answered with `ok` and
leaves the other. -/
def Leads (pre post : S → Prop) (delivery : B) : Prop :=
  ∀ state, pre state → (step delivery state).1 = ok ∧ post (step delivery state).2

variable {step ok}

theorem RunsTo.nil {state : S} {post : S → Prop} (h : post state) : RunsTo step ok [] state post :=
  ⟨by simp [runAll], h⟩

theorem RunsTo.cons {delivery : B} {rest : List B} {state : S} {post : S → Prop}
    (hok : (step delivery state).1 = ok) (hrest : RunsTo step ok rest (step delivery state).2 post) :
    RunsTo step ok (delivery :: rest) state post := by
  refine ⟨?_, hrest.2⟩
  intro reply hmem
  rcases List.mem_cons.mp hmem with rfl | hmem
  · exact hok
  · exact hrest.1 reply hmem

theorem RunsTo.append {first second : List B} {state : S} {mid post : S → Prop}
    (hfirst : RunsTo step ok first state mid)
    (hsecond : ∀ state, mid state → RunsTo step ok second state post) :
    RunsTo step ok (first ++ second) state post := by
  obtain ⟨hreplies, hpost⟩ := hsecond _ hfirst.2
  unfold RunsTo
  rw [runAll_append]
  refine ⟨?_, hpost⟩
  intro reply hmem
  rcases List.mem_append.mp hmem with hmem | hmem
  · exact hfirst.1 reply hmem
  · exact hreplies reply hmem

/-- Deliveries that keep a condition are answered with `ok` for as long as they come. -/
theorem RunsTo.keep {deliveries : List B} {keep : S → Prop}
    (h : ∀ delivery ∈ deliveries, Leads step ok keep keep delivery) {state : S}
    (hs : keep state) : RunsTo step ok deliveries state keep := by
  induction deliveries generalizing state with
  | nil => exact .nil hs
  | cons delivery rest ih =>
    obtain ⟨hok, hnext⟩ := h delivery (List.mem_cons_self ..) state hs
    exact .cons hok (ih (fun d hd => h d (List.mem_cons_of_mem _ hd)) hnext)

/-! ## Repetition -/

/-- The deliveries carry the messages in order, each one or more times in a row. -/
inductive Repeated (carries : B → A → Prop) : List A → List B → Prop
  | nil : Repeated carries [] []
  | cons {message : A} {messages : List A} {delivery : B} {again rest : List B}
      (first : carries delivery message) (repeats : ∀ d ∈ again, carries d message)
      (tail : Repeated carries messages rest) :
      Repeated carries (message :: messages) (delivery :: (again ++ rest))

variable {carries : B → A → Prop}

/-- Each message once. -/
theorem Repeated.once {messages : List A} {deliveries : List B}
    (h : List.Forall₂ carries deliveries messages) : Repeated carries messages deliveries := by
  induction h with
  | nil => exact .nil
  | cons hfirst _ ih => exact @Repeated.cons A B carries _ _ _ [] _ hfirst (by simp) ih

/-- Repetition only adds deliveries of each kind. -/
theorem Repeated.countP_le {messages : List A} {deliveries once : List B}
    (h : Repeated carries messages deliveries) (honce : List.Forall₂ carries once messages)
    (kind : B → Bool) (kindOf : A → Bool)
    (hkind : ∀ delivery message, carries delivery message → kind delivery = kindOf message) :
    once.countP kind ≤ deliveries.countP kind := by
  induction h generalizing once with
  | nil =>
    cases honce
    exact Nat.le_refl _
  | @cons message messages delivery again rest hfirst repeats tail ih =>
    cases honce with
    | @cons single _ ones _ hsingle hones =>
      have hsame : kind single = kind delivery := by
        rw [hkind _ _ hsingle, hkind _ _ hfirst]
      have hrest := ih hones
      rw [List.countP_cons, List.countP_cons, List.countP_append, hsame]
      omega

theorem Repeated.append_inv {first second : List A} {deliveries : List B}
    (h : Repeated carries (first ++ second) deliveries) :
    ∃ sent more, deliveries = sent ++ more ∧ Repeated carries first sent ∧
      Repeated carries second more := by
  induction first generalizing deliveries with
  | nil => exact ⟨[], deliveries, rfl, .nil, h⟩
  | cons message messages ih =>
    cases h with
    | @cons _ _ delivery again rest hfirst repeats tail =>
      obtain ⟨sent, more, rfl, hsent, hmore⟩ := ih tail
      exact ⟨delivery :: (again ++ sent), more, by simp, .cons hfirst repeats hsent, hmore⟩

theorem Repeated.singleton_inv {message : A} {deliveries : List B}
    (h : Repeated carries [message] deliveries) :
    ∃ delivery again, deliveries = delivery :: again ∧ carries delivery message ∧
      ∀ d ∈ again, carries d message := by
  cases h with
  | cons hfirst repeats tail =>
    cases tail
    exact ⟨_, _, by rw [List.append_nil], hfirst, repeats⟩

/-- When message `i` leads from condition `i` to the next one and keeps it, the
deliveries lead from the first condition to the last. -/
theorem Repeated.runsTo {messages : List A} {deliveries : List B}
    (h : Repeated carries messages deliveries) (stage : Nat → S → Prop)
    (hstage : ∀ i message, messages[i]? = some message → ∀ delivery, carries delivery message →
      Leads step ok (stage i) (stage (i + 1)) delivery ∧
        Leads step ok (stage (i + 1)) (stage (i + 1)) delivery)
    {state : S} (hs : stage 0 state) :
    RunsTo step ok deliveries state (stage messages.length) := by
  induction h generalizing stage state with
  | nil => exact .nil hs
  | @cons message messages delivery again rest hfirst repeats tail ih =>
    obtain ⟨hok, hnext⟩ := (hstage 0 message rfl delivery hfirst).1 state hs
    refine .cons hok ?_
    refine .append (.keep (fun d hd => (hstage 0 message rfl d (repeats d hd)).2) hnext) ?_
    intro mid hmid
    exact ih (fun i => stage (i + 1)) (fun i m hm => hstage (i + 1) m hm) hmid

/-- One message that leads to a condition and keeps it, however often it comes. -/
theorem Repeated.single_runsTo {message : A} {deliveries : List B}
    (h : Repeated carries [message] deliveries) {pre post : S → Prop}
    (hlead : ∀ delivery, carries delivery message → Leads step ok pre post delivery)
    (hkeep : ∀ delivery, carries delivery message → Leads step ok post post delivery)
    {state : S} (hs : pre state) : RunsTo step ok deliveries state post := by
  obtain ⟨delivery, again, rfl, hfirst, repeats⟩ := h.singleton_inv
  obtain ⟨hok, hnext⟩ := hlead delivery hfirst state hs
  exact .cons hok (.keep (fun d hd => hkeep d (repeats d hd)) hnext)

end at_least_once
