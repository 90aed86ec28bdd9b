import ChannelMux.Proofs.Ledgers

/-!
# Lines: an outcome is learned once

A promise and its completion are the two ends of a channel for one value, which is called a line
here.  Keeping the promise sends the outcome along the line, breaking it hangs up, and whoever holds
the ticket asks at the other end.  `Line.Faithful` says what may be expected of a line: the first to
ask afterwards is given what was sent, or told that nothing will come.  It says nothing about
further questions, and a line may well break down over one (`Line.oneshot` does).

So a completion has to remember that the outcome was learned, in whichever of two ways it was asked
for, and leave the line alone from then on.  `Receiver` is a completion at the end of any line; its
replies and those of a ledger are the same (`outcome_is_learned_once`).
-/

namespace ChannelMux

/-- The ways of asking for an outcome. -/
inductive Question where
  | tryTake
  | poll
deriving DecidableEq, Repr

namespace Question

def ask : Question → Completion → Option Outcome × Completion
  | tryTake => Completion.tryTake
  | poll => Completion.poll

/-- What is learned by asking after the outcome has been learned. -/
def late : Question → Option Outcome
  | tryTake => none
  | poll => some (.failed (.state .completionConsumed))

end Question

/-- What happens at the two ends of a line. -/
inductive Incident where
  | kept (o : Outcome)
  | broken
  | asked (q : Question)
deriving DecidableEq, Repr

/-! ## Following what happens -/

section Following

variable {σ : Type} {step : σ → Incident → Option (List (Option Outcome) × σ)} {x y z : σ}
  {i : Incident} {is js : List Incident} {as bs : List (Option Outcome)} {o : Outcome}

/-- The replies to the questions among the incidents, and what the incidents lead to; nothing, if
nothing comes back from one of them. -/
def follow (step : σ → Incident → Option (List (Option Outcome) × σ)) (x : σ) :
    List Incident → Option (List (Option Outcome) × σ)
  | [] => some ([], x)
  | i :: is => (step x i).bind fun a => (follow step a.2 is).map fun b => (a.1 ++ b.1, b.2)

theorem follow_cons (h : step x i = some (as, y)) (h' : follow step y is = some (bs, z)) :
    follow step x (i :: is) = some (as ++ bs, z) := by
  simp [follow, h, h']

theorem follow_append (h : follow step x is = some (as, y)) (h' : follow step y js = some (bs, z)) :
    follow step x (is ++ js) = some (as ++ bs, z) := by
  induction is generalizing x as with
  | nil =>
    obtain ⟨rfl, rfl⟩ := Prod.mk.inj (Option.some.inj h)
    exact h'
  | cons i is ih =>
    obtain ⟨a, hi, hrest⟩ := Option.bind_eq_some_iff.mp h
    obtain ⟨b, his, heq⟩ := Option.map_eq_some_iff.mp hrest
    obtain ⟨rfl, rfl⟩ := Prod.mk.inj heq
    rw [List.cons_append, List.append_assoc]
    exact follow_cons hi (ih his)

/-- Questions that change nothing. -/
theorem follow_questions {reply : Question → Option Outcome}
    (h : ∀ q, step x (.asked q) = some ([reply q], x)) (qs : List Question) :
    follow step x (qs.map .asked) = some (qs.map reply, x) := by
  induction qs with
  | nil => rfl
  | cons q qs ih => exact follow_cons (h q) ih

/-- The replies when an outcome is there: it goes to whoever asks first. -/
def Outcome.learned (o : Outcome) : List Question → List (Option Outcome)
  | [] => []
  | _ :: qs => some o :: qs.map Question.late

/-- The promise is settled between questions that find nothing yet and questions of which the first
is told the outcome. -/
theorem follow_once {before : List Question} {w : σ} {taken : Question → σ}
    (hbefore : follow step x (before.map .asked) = some (before.map fun _ => none, w))
    (hsettled : step w i = some ([], y))
    (hfirst : ∀ q, step y (.asked q) = some ([some o], taken q))
    (hlate : ∀ q q', step (taken q) (.asked q') = some ([q'.late], taken q))
    (after : List Question) :
    follow step x (before.map .asked ++ i :: after.map .asked) =
      some ((before.map fun _ => none) ++ o.learned after, after.head?.elim y taken) := by
  have hafter : follow step y (after.map .asked) =
      some (o.learned after, after.head?.elim y taken) := by
    cases after with
    | nil => rfl
    | cons q after => exact follow_cons (hfirst q) (follow_questions (hlate q) after)
  have hrest := follow_cons hsettled hafter
  exact follow_append hbefore hrest

end Following

/-! ## At the end of a line -/

/-- What shows at the receiving end of a line. -/
inductive Reception where
  | waiting
  | received (o : Outcome)
  /-- The other end is gone, and nothing was sent. -/
  | hungUp
deriving DecidableEq, Repr

/-- A line is known by what it shows to whoever asks, which may depend on all that has happened at
its two ends. -/
structure Line where
  /-- Nothing, if the line breaks down over the question. -/
  answer : List Incident → Question → Option Reception

namespace Line

/-- As long as nothing happens at the sending end, whoever asks is told to wait.  Afterwards the
first to ask receives what was sent, or is told that the other end hung up. -/
structure Faithful (L : Line) : Prop where
  waits : ∀ (qs : List Question) (q : Question), L.answer (qs.map .asked) q = some .waiting
  delivers : ∀ (qs : List Question) (o : Outcome) (q : Question),
    L.answer (qs.map .asked ++ [.kept o]) q = some (.received o)
  hangsUp : ∀ (qs : List Question) (q : Question),
    L.answer (qs.map .asked ++ [.broken]) q = some .hungUp

/-- What shows at the end of a line that forgets its value when it hands it over, and breaks down if
it is waited at after that. -/
def shown (q : Question) : List Incident → Option Reception
  | [] => some .waiting
  | .asked _ :: incidents => shown q incidents
  | [.kept o] => some (.received o)
  | [.broken] => some .hungUp
  | .kept _ :: _ | .broken :: _ =>
    match q with
    | .tryTake => some .hungUp
    | .poll => none

def oneshot : Line := ⟨fun incidents q => shown q incidents⟩

theorem shown_append (q : Question) (qs : List Question) (incidents : List Incident) :
    shown q (qs.map .asked ++ incidents) = shown q incidents := by
  induction qs with
  | nil => rfl
  | cons _ qs ih => exact ih

theorem faithful_oneshot : oneshot.Faithful where
  waits qs q := by
    have hshown := shown_append q qs []
    rwa [List.append_nil] at hshown
  delivers qs o q := shown_append q qs [.kept o]
  hangsUp qs q := shown_append q qs [.broken]

end Line

/-- A completion at the end of a line. -/
structure Receiver where
  /-- What has happened at the two ends of the line. -/
  line : List Incident := []
  taken : Bool := false
deriving DecidableEq, Repr

namespace Receiver

/-- Ask at the line, unless the outcome has been learned; nothing comes back if the line breaks
down. -/
def ask (L : Line) (r : Receiver) (q : Question) : Option (Option Outcome × Receiver) :=
  if r.taken then
    match q with
    | .tryTake => some (none, r)
    | .poll => some (some (.failed (.state .completionConsumed)), r)
  else
    let asked : Receiver := { r with line := r.line ++ [.asked q] }
    (L.answer r.line q).map fun
      | .waiting => (none, asked)
      | .received o => (some o, { asked with taken := true })
      | .hungUp => (some (.failed .channelClosed), { asked with taken := true })

def step (L : Line) (r : Receiver) : Incident → Option (List (Option Outcome) × Receiver)
  | .asked q => (r.ask L q).map fun a => ([a.1], a.2)
  | i => some ([], { r with line := r.line ++ [i] })

variable {L : Line}

theorem follow_waiting (h : L.Faithful) (before qs : List Question) :
    follow (step L) ⟨before.map .asked, false⟩ (qs.map .asked) =
      some (qs.map fun _ => none, ⟨(before ++ qs).map .asked, false⟩) := by
  -- every question reaches the line, so what was asked before grows along with the induction
  induction qs generalizing before with
  | nil => simp [follow]
  | cons q qs ih =>
    have hasked : step L ⟨before.map .asked, false⟩ (.asked q) =
        some ([none], ⟨(before ++ [q]).map .asked, false⟩) := by
      simp [step, ask, h.waits]
    have hrest := follow_cons hasked (ih (before ++ [q]))
    rwa [List.append_assoc] at hrest

/-- Once the outcome has been learned, nothing more happens at the line. -/
theorem step_taken (L : Line) (line : List Incident) (q : Question) :
    step L ⟨line, true⟩ (.asked q) = some ([q.late], ⟨line, true⟩) := by
  cases q <;> rfl

theorem follow_settled (h : L.Faithful) {i : Incident} {o : Outcome} {before : List Question}
    (hi : step L ⟨before.map .asked, false⟩ i = some ([], ⟨before.map .asked ++ [i], false⟩))
    (hfirst : ∀ q, ask L ⟨before.map .asked ++ [i], false⟩ q =
      some (some o, ⟨before.map .asked ++ [i, .asked q], true⟩))
    (after : List Question) :
    ∃ taken, follow (step L) {} (before.map .asked ++ i :: after.map .asked) =
      some ((before.map fun _ => none) ++ o.learned after,
        ⟨before.map .asked ++ i :: (after.take 1).map .asked, taken⟩) := by
  have hasked (q : Question) : step L ⟨before.map .asked ++ [i], false⟩ (.asked q) =
      some ([some o], ⟨before.map .asked ++ [i, .asked q], true⟩) := by
    rw [step, hfirst]
    rfl
  refine ⟨!after.isEmpty, (follow_once (follow_waiting h [] before) hi hasked
    (fun q => step_taken L _) after).trans ?_⟩
  cases after <;> rfl

end Receiver

/-! ## In a ledger -/

namespace Ledger

def step (t : Ticket) (l : Ledger) : Incident → Option (List (Option Outcome) × Ledger)
  | .kept o => some ([], l.resolve t o)
  | .broken => some ([], l.settle t .broken)
  | .asked q => (l.ask t q.ask).map fun a => ([a.1], a.2)

variable {l : Ledger} {t : Ticket} {c : Completion}

theorem step_asked (hc : l.completions.get? t = some c) (hdropped : c.dropped = false)
    (q : Question) :
    step t l (.asked q) =
      some ([(q.ask c).1], { l with completions := l.completions.insert t (q.ask c).2 }) := by
  have hopen : l.open? t = some c := by
    rw [open?, hc, Option.filter_some, hdropped]
    rfl
  rw [step, ask, hopen]
  rfl

/-- A question that leaves the completion as it is. -/
theorem step_asked_of_same (hc : l.completions.get? t = some c) (hdropped : c.dropped = false)
    {q : Question} {reply : Option Outcome} (hq : q.ask c = (reply, c)) :
    step t l (.asked q) = some ([reply], l) := by
  rw [step_asked hc hdropped, hq, Table.insert_self hc]

theorem follow_waiting (hc : l.completions.get? t = some {}) (qs : List Question) :
    follow (step t) l (qs.map .asked) = some (qs.map fun _ => none, l) := by
  refine follow_questions (fun q => step_asked_of_same hc rfl ?_) qs
  cases q <;> rfl

theorem follow_settled (hc : l.completions.get? t = some {}) {i : Incident} {p : Promise}
    {o : Outcome} (hi : step t l i = some ([], l.settle t p)) (ho : p.outcome? = some o)
    (before after : List Question) :
    ∃ l', follow (step t) l (before.map .asked ++ i :: after.map .asked) =
      some ((before.map fun _ => none) ++ o.learned after, l') := by
  -- the ledger changes twice: when the promise is settled, and when the outcome is learned
  have hsettled : (l.settle t p).completions.get? t = some { promise := p } := by
    rw [settle, Table.get?_modify, if_pos rfl, hc]
    rfl
  let learned := (l.settle t p).completions.insert t { promise := p, taken := true }
  have hfirst (q : Question) : step t (l.settle t p) (.asked q) =
      some ([some o], { l.settle t p with completions := learned }) := by
    rw [step_asked hsettled rfl]
    cases q <;> simp [Question.ask, Completion.tryTake, Completion.poll, ho, learned]
  have hlate (q : Question) : step t { l.settle t p with completions := learned } (.asked q) =
      some ([q.late], { l.settle t p with completions := learned }) := by
    refine step_asked_of_same (Table.get?_insert_self ..) rfl ?_
    cases q <;> rfl
  exact ⟨_, follow_once (follow_waiting hc before) hi hfirst (fun _ => hlate) after⟩

end Ledger

/-! ## Both -/

/-- Whoever holds the ticket gets these replies, and so does whoever waits at the line.  No more
than is listed happens at the ends of the line. -/
structure Learns (L : Line) (l : Ledger) (t : Ticket) (incidents : List Incident)
    (replies : List (Option Outcome)) (line : List Incident) : Prop where
  ledger : ∃ l', follow (Ledger.step t) l incidents = some (replies, l')
  receiver : ∃ taken, follow (Receiver.step L) {} incidents = some (replies, ⟨line, taken⟩)

/-- The outcome behind a new ticket is learned once, however it is asked for and whatever faithful
line it comes along.  Questions that are asked before the promise is settled find nothing.  The
first one after that is told how the promise was kept, or that the channel is closed if it was
broken; all later ones learn that they are late, and do not reach the line. -/
theorem outcome_is_learned_once {L : Line} (h : L.Faithful) (l : Ledger)
    (before after : List Question) :
    let t := (l.issue .held).1
    let l' := (l.issue .held).2
    Learns L l' t (before.map .asked) (before.map fun _ => none) (before.map .asked) ∧
    (∀ o, Learns L l' t (before.map .asked ++ .kept o :: after.map .asked)
      ((before.map fun _ => none) ++ o.learned after)
      (before.map .asked ++ .kept o :: (after.take 1).map .asked)) ∧
    Learns L l' t (before.map .asked ++ .broken :: after.map .asked)
      ((before.map fun _ => none) ++ (Outcome.failed .channelClosed).learned after)
      (before.map .asked ++ .broken :: (after.take 1).map .asked) := by
  intro t l'
  have hc : l'.completions.get? t = some {} := Table.get?_insert_self ..
  refine ⟨⟨?_, ?_⟩, fun o => ⟨?_, ?_⟩, ⟨?_, ?_⟩⟩
  · exact ⟨l', Ledger.follow_waiting hc before⟩
  · exact ⟨false, Receiver.follow_waiting h [] before⟩
  · exact Ledger.follow_settled hc rfl rfl before after
  · refine Receiver.follow_settled h rfl (fun q => ?_) after
    simp [Receiver.ask, h.delivers]
  · exact Ledger.follow_settled hc rfl rfl before after
  · refine Receiver.follow_settled h rfl (fun q => ?_) after
    simp [Receiver.ask, h.hangsUp]

/-- The outcome is learned by waiting.  When it is asked for and waited for again, the line is left
alone, which would break down over the last question. -/
theorem oneshot_is_not_asked_again :
    Line.oneshot.Faithful ∧
    Learns .oneshot (({} : Ledger).issue .held).2 0
      [.asked .tryTake, .asked .poll, .kept .done, .asked .poll, .asked .tryTake, .asked .poll]
      [none, none, some .done, none, some (.failed (.state .completionConsumed))]
      [.asked .tryTake, .asked .poll, .kept .done, .asked .poll] ∧
    Line.oneshot.answer [.asked .tryTake, .asked .poll, .kept .done, .asked .poll] .poll = none :=
  ⟨Line.faithful_oneshot, (outcome_is_learned_once Line.faithful_oneshot {} [.tryTake, .poll]
    [.poll, .tryTake, .poll]).2.1 .done, rfl⟩

end ChannelMux
