import ChannelMux.Proofs.Compression

/-!
# Negotiation: what each side makes of the other's parameters

A server grants the first element that offers compression in due form, whatever stands before and
after it, and never more than it offered itself or was asked for (`Terms.Grants`).  A window at its
default size is left out of the answer, and reading the answer puts it back.

A client compares the answer with its offer parameter by parameter, and each parameter by a rule of
its own.  Two of the rules ask for nothing: the answer may give the client a larger window than it
offered, and it may leave out that the server forgets its window.
-/

namespace ChannelMux.Deflate

open Text

variable {e : Extension} {p : Extension.Param} {ps ps' : Params} {q : Parameter} {n : Nat}
  {header : String}

theorem Parameter.ofName?_eq_some_iff {name : String} : ofName? name = some q ↔ name = q.name := by
  constructor
  · intro h
    have hname := List.find?_some (p := fun q : Parameter => decide (q.name = name)) h
    exact (of_decide_eq_true hname).symm
  · rintro rfl
    cases q <;> rfl

theorem Parameter.name_inj {q q' : Parameter} : q.name = q'.name ↔ q = q' := by
  constructor
  · intro h
    have hself : ofName? q.name = some q := ofName?_eq_some_iff.mpr rfl
    exact Option.some.inj (hself.symm.trans (ofName?_eq_some_iff.mpr h))
  · rintro rfl
    rfl

/-! ## Parameters that are read -/

theorem bounds_of_bitsOfText {text : String} (h : bitsOfText text = .ok n) :
    minBits ≤ n ∧ n ≤ maxBits := by
  rw [bitsOfText] at h
  split at h
  · cases h
  · split at h
    next hbounds =>
      obtain rfl := Except.ok.inj h
      exact hbounds
    next => cases h

namespace Params

/-- A parameter that has not occurred before is taken in. -/
inductive Adds (ps : Params) : Extension.Param → Params → Prop where
  | serverFlag : ps.serverNoTakeover = false →
      Adds ps ⟨Parameter.serverNoTakeover.name, none⟩ { ps with serverNoTakeover := true }
  | clientFlag : ps.clientNoTakeover = false →
      Adds ps ⟨Parameter.clientNoTakeover.name, none⟩ { ps with clientNoTakeover := true }
  | serverBits {text : String} {n : Nat} : ps.serverBits = none → bitsOfText text = .ok n →
      Adds ps ⟨Parameter.serverBits.name, some text⟩ { ps with serverBits := some n }
  | clientBare : ps.clientWindow = .absent →
      Adds ps ⟨Parameter.clientBits.name, none⟩ { ps with clientWindow := .bare }
  | clientBits {text : String} {n : Nat} : ps.clientWindow = .absent → bitsOfText text = .ok n →
      Adds ps ⟨Parameter.clientBits.name, some text⟩ { ps with clientWindow := .bits n }

theorem exists_of_map_eq_ok {x : Except Fault Nat} {f : Nat → Params} (h : x.map f = .ok ps) :
    ∃ n, x = .ok n ∧ f n = ps := by
  cases x with
  | error => cases h
  | ok n => exact ⟨n, rfl, Except.ok.inj h⟩

theorem adds_of_add (h : ps.add p = .ok ps') : ps.Adds p ps' := by
  obtain ⟨name, value⟩ := p
  rw [add] at h
  dsimp only at h
  cases hname : Parameter.ofName? name with
  | none => rw [hname] at h; cases h
  | some q =>
    rw [hname] at h
    obtain rfl := Parameter.ofName?_eq_some_iff.mp hname
    cases q with
    | serverNoTakeover =>
      cases value <;> cases hset : ps.serverNoTakeover <;> rw [hset] at h <;> cases h
      exact .serverFlag hset
    | clientNoTakeover =>
      cases value <;> cases hset : ps.clientNoTakeover <;> rw [hset] at h <;> cases h
      exact .clientFlag hset
    | serverBits =>
      cases value <;> cases hset : ps.serverBits <;> rw [hset] at h <;> try cases h
      obtain ⟨n, hread, rfl⟩ := exists_of_map_eq_ok h
      exact .serverBits hset hread
    | clientBits =>
      cases value <;> cases hset : ps.clientWindow <;> rw [hset] at h <;> try cases h
      · exact .clientBare hset
      · obtain ⟨n, hread, rfl⟩ := exists_of_map_eq_ok h
        exact .clientBits hset hread

theorem add_of_adds (h : ps.Adds p ps') : ps.add p = .ok ps' := by
  cases h with
  | serverFlag hset =>
    rw [add, Parameter.ofName?_eq_some_iff.mpr rfl]
    simp [hset]
  | clientFlag hset =>
    rw [add, Parameter.ofName?_eq_some_iff.mpr rfl]
    simp [hset]
  | serverBits hset hread => exact add_serverBits hset hread
  | clientBare hset =>
    rw [add, Parameter.ofName?_eq_some_iff.mpr rfl]
    simp [hset]
  | clientBits hset hread => exact add_clientBits hset hread

/-- The windows that are given a size have one that can be stated. -/
structure InRange (ps : Params) : Prop where
  server : ∀ n, ps.serverBits = some n → minBits ≤ n ∧ n ≤ maxBits
  client : ∀ n, ps.clientWindow = .bits n → minBits ≤ n ∧ n ≤ maxBits

namespace InRange

theorem adds (h : ps.InRange) (hadds : ps.Adds p ps') : ps'.InRange := by
  cases hadds with
  | serverFlag | clientFlag => exact ⟨h.server, h.client⟩
  | serverBits _ hread =>
    exact ⟨fun m hm => Option.some.inj hm ▸ bounds_of_bitsOfText hread, h.client⟩
  | clientBare => exact ⟨h.server, nofun⟩
  | clientBits _ hread =>
    exact ⟨h.server, fun m hm => ClientWindow.bits.inj hm ▸ bounds_of_bitsOfText hread⟩

theorem foldlM (h : ps.InRange) {qs : List Extension.Param}
    (hread : qs.foldlM Params.add ps = .ok ps') : ps'.InRange := by
  induction qs generalizing ps with
  | nil =>
    cases hread
    exact h
  | cons q qs ih =>
    rw [List.foldlM_cons] at hread
    cases hadd : ps.add q with
    | error => rw [hadd] at hread; cases hread
    | ok next =>
      rw [hadd] at hread
      exact ih (h.adds (adds_of_add hadd)) hread

theorem of_ofList {qs : List Extension.Param} (h : ofList qs = .ok ps) : ps.InRange :=
  have hempty : InRange {} := ⟨nofun, nofun⟩
  hempty.foldlM h

end InRange

end Params

/-- The element is about compression and states these parameters in due form. -/
structure Carries (e : Extension) (ps : Params) : Prop where
  name : sameIgnoringCase e.name extensionName = true
  params : Params.ofList e.params = .ok ps

theorem offered?_eq_some_iff : Terms.offered? e = some ps ↔ Carries e ps := by
  rw [Terms.offered?]
  split
  next hname =>
    cases hread : Params.ofList e.params with
    | error =>
      constructor
      · intro h
        cases h
      · intro h
        cases hread.symm.trans h.params
    | ok qs =>
      constructor
      · rintro ⟨⟩
        exact ⟨hname, hread⟩
      · intro h
        exact congrArg some (Except.ok.inj (hread.symm.trans h.params))
  next hname =>
    constructor
    · intro h
      cases h
    · intro h
      exact absurd h.name hname

theorem offered?_eq_none_iff : Terms.offered? e = none ↔ ∀ ps, ¬ Carries e ps := by
  simp only [Option.eq_none_iff_forall_ne_some, ne_eq, offered?_eq_some_iff]

namespace Terms

variable {t own agreed : Terms}

/-! ## The server's side -/

theorem negotiate_eq_some_iff : own.negotiate header = some agreed ↔
    ∃ before e after ps, Extension.parseList header = before ++ e :: after ∧
      (∀ x ∈ before, ∀ qs, ¬ Carries x qs) ∧ Carries e ps ∧ own.grant ps = agreed := by
  rw [negotiate, List.head?_filterMap, Option.map_eq_some_iff]
  simp only [List.findSome?_eq_some_iff, offered?_eq_some_iff, offered?_eq_none_iff]
  constructor
  · rintro ⟨ps, ⟨before, e, after, hlist, he, hbefore⟩, hgrant⟩
    exact ⟨before, e, after, ps, hlist, hbefore, he, hgrant⟩
  · rintro ⟨before, e, after, ps, hlist, hbefore, he, hgrant⟩
    exact ⟨ps, ⟨before, e, after, hlist, he, hbefore⟩, hgrant⟩

/-- Something is granted if anything is offered in due form. -/
theorem exists_negotiate_iff : (∃ agreed, own.negotiate header = some agreed) ↔
    ∃ e ∈ Extension.parseList header, ∃ ps, Carries e ps := by
  rw [← Option.isSome_iff_exists, negotiate, Option.isSome_map, List.head?_filterMap,
    List.findSome?_isSome_iff]
  simp only [Option.isSome_iff_exists, offered?_eq_some_iff]

/-- What a server that wants `own` may agree to when it is offered `ps`. -/
structure Grants (own : Terms) (ps : Params) (agreed : Terms) : Prop where
  server_low : minBits ≤ agreed.serverBits
  server_own : agreed.serverBits ≤ own.serverBits
  server_offered : ∀ n, ps.serverBits = some n → agreed.serverBits ≤ n
  /-- The client's window is limited only if the client has mentioned it. -/
  client_absent : ps.clientWindow = .absent → agreed.clientBits = maxBits
  client_own : ps.clientWindow ≠ .absent → agreed.clientBits ≤ own.clientBits
  client_offered : ∀ n, ps.clientWindow = .bits n → agreed.clientBits ≤ n
  serverNoTakeover : agreed.serverNoTakeover = (ps.serverNoTakeover || own.serverNoTakeover)
  clientNoTakeover : agreed.clientNoTakeover = (ps.clientNoTakeover || own.clientNoTakeover)

theorem grants_grant (hown : own.InRange) (h : ps.InRange) : own.Grants ps (own.grant ps) where
  server_low := by
    cases hstated : ps.serverBits with
    | none => simpa only [grant, hstated] using hown.server_low
    | some n =>
      simp only [grant, hstated]
      exact Nat.le_min.mpr ⟨(h.server n hstated).1, hown.server_low⟩
  server_own := by
    cases hstated : ps.serverBits with
    | none => simp only [grant, hstated, Nat.le_refl]
    | some n => simp only [grant, hstated, Nat.min_le_right]
  server_offered n hstated := by simp only [grant, hstated, Nat.min_le_left]
  client_absent habsent := by simp only [grant, habsent]
  client_own hmentioned := by
    cases hwindow : ps.clientWindow with
    | absent => exact absurd hwindow hmentioned
    | bare => simp only [grant, hwindow, Nat.min_le_right]
    | bits n => simp only [grant, hwindow, Nat.min_le_right]
  client_offered n hwindow := by simp only [grant, hwindow, Nat.min_le_left]
  serverNoTakeover := rfl
  clientNoTakeover := rfl

theorem inRange_grant (hown : own.InRange) (h : ps.InRange) : (own.grant ps).InRange := by
  have hgrants := grants_grant hown h
  refine
    { server_low := hgrants.server_low
      server_high := Nat.le_trans hgrants.server_own hown.server_high
      client_low := ?_
      client_high := ?_ }
  · cases hwindow : ps.clientWindow with
    | absent => rw [hgrants.client_absent hwindow]; decide
    | bare =>
      simp only [grant, hwindow]
      exact Nat.le_min.mpr ⟨by decide, hown.client_low⟩
    | bits n =>
      simp only [grant, hwindow]
      exact Nat.le_min.mpr ⟨(h.client n hwindow).1, hown.client_low⟩
  · by_cases hwindow : ps.clientWindow = .absent
    · exact Nat.le_of_eq (hgrants.client_absent hwindow)
    · exact Nat.le_trans (hgrants.client_own hwindow) hown.client_high

/-- A window that is left out of an answer has the default size. -/
theorem statedBits_eq (h : n ≤ maxBits) :
    statedBits n = some n ∨ statedBits n = none ∧ n = maxBits := by
  rw [statedBits]
  split
  next => exact .inl rfl
  next hnot => exact .inr ⟨rfl, Nat.le_antisymm h (Nat.le_of_not_lt hnot)⟩

/-- What is left out of an answer is put back in reading it. -/
theorem ofParams_responseParams (h : t.InRange) : ofParams t.responseParams = t := by
  obtain ⟨server, client, _, _⟩ := t
  rw [ofParams, responseParams]
  congr 1
  · rcases statedBits_eq h.server_high with hstated | ⟨hstated, hdefault⟩
    · exact congrArg (Option.getD · maxBits) hstated
    · exact (congrArg (Option.getD · maxBits) hstated).trans hdefault.symm
  · dsimp only
    rcases statedBits_eq h.client_high with hstated | ⟨hstated, hdefault⟩
    · dsimp only at hstated
      rw [hstated]
      rfl
    · dsimp only at hstated
      rw [hstated]
      exact hdefault.symm

theorem ofParamList_response (h : t.InRange) : ofParamList t.response.params = .ok t := by
  rw [ofParamList, ofList_response h]
  exact congrArg Except.ok (ofParams_responseParams h)

theorem name_of_mem_flagParam {set : Bool} (h : p ∈ flagParam q set) : p.name = q.name := by
  rw [flagParam] at h
  split at h
  · rw [List.mem_singleton.mp h]
  · cases h

/-- The client's window is not mentioned at its default size. -/
theorem clientBits_notMem_response (h : t.clientBits = maxBits) :
    ∀ p ∈ t.response.params, p.name ≠ Parameter.clientBits.name := by
  intro p hp
  rw [response, h, List.mem_append, sharedParams, List.mem_append, List.mem_append] at hp
  rcases hp with ((hp | hp) | hp) | hp
  · rw [name_of_mem_flagParam hp]
    decide
  · rw [name_of_mem_flagParam hp]
    decide
  · rw [eq_of_mem_bitsParam hp]
    change Parameter.serverBits.name ≠ _
    decide
  · cases hp

/-- A server grants something if any element of the header offers compression in due form.  What it
grants is made of the first such element, and is what both sides can agree to; its answer is one
element, from which the client reads the same terms, and which mentions the client's window only if
the client has mentioned it. -/
theorem first_offer_is_granted (hown : own.InRange) (header : String) :
    ((∃ agreed, own.negotiate header = some agreed) ↔
      ∃ e ∈ Extension.parseList header, ∃ ps, Carries e ps) ∧
    ∀ agreed, own.negotiate header = some agreed →
      ∃ before e after ps, Extension.parseList header = before ++ e :: after ∧
        (∀ x ∈ before, ∀ qs, ¬ Carries x qs) ∧ Carries e ps ∧ own.Grants ps agreed ∧
        ∃ answer, Extension.parseList agreed.responseHeader = [answer] ∧
          answer.name = extensionName ∧
          ofParamList answer.params = .ok agreed ∧
          (ps.clientWindow = .absent →
            ∀ p ∈ answer.params, p.name ≠ Parameter.clientBits.name) := by
  refine ⟨exists_negotiate_iff, fun agreed h => ?_⟩
  obtain ⟨before, e, after, ps, hlist, hbefore, he, rfl⟩ := negotiate_eq_some_iff.mp h
  have hstated := Params.InRange.of_ofList he.params
  have hgrants := grants_grant hown hstated
  have hrange := inRange_grant hown hstated
  refine ⟨before, e, after, ps, hlist, hbefore, he, hgrants, (own.grant ps).response, ?_, ?_, ?_, ?_⟩
  · exact (hrange.writable_element fun _ => states_response).parseList_render
  · rfl
  · exact ofParamList_response hrange
  · exact fun habsent => clientBits_notMem_response (hgrants.client_absent habsent)

/-- The second element is not in due form; the third is granted, with a window that is smaller than
the server would have had it. -/
theorem third_element_is_granted :
    let own : Terms := { serverBits := 12, clientBits := 10 }
    let header := "x-a, permessage-deflate; client_max_window_bits=99, " ++
      "Permessage-Deflate; client_max_window_bits=9"
    own.InRange ∧ own.negotiate header = some ⟨12, 9, false, false⟩ ∧
      ∃ before e after ps, Extension.parseList header = before ++ e :: after ∧
        (∀ x ∈ before, ∀ qs, ¬ Carries x qs) ∧ Carries e ps ∧
        own.Grants ps ⟨12, 9, false, false⟩ ∧
        ∃ answer, Extension.parseList (responseHeader ⟨12, 9, false, false⟩) = [answer] ∧
          ofParamList answer.params = .ok ⟨12, 9, false, false⟩ := by
  intro own header
  have hown : own.InRange := ⟨by decide, by decide, by decide, by decide⟩
  have hgranted : own.negotiate header = some ⟨12, 9, false, false⟩ := by decide +kernel
  obtain ⟨before, e, after, ps, hlist, hbefore, he, hgrants, answer, hanswer, -, hread, -⟩ :=
    (first_offer_is_granted hown header).2 _ hgranted
  exact ⟨hown, hgranted, before, e, after, ps, hlist, hbefore, he, hgrants, answer, hanswer, hread⟩

/-! ## The client's side -/

theorem accept_of_carries (hlist : Extension.parseList header = [e]) (he : Carries e ps) :
    t.accept header = do
      let serverBits ← t.acceptServerBits ps.serverBits
      let clientBits ← t.acceptClientBits ps.clientWindow
      return { serverBits, clientBits, serverNoTakeover := ps.serverNoTakeover,
               clientNoTakeover := ps.clientNoTakeover || t.clientNoTakeover } := by
  rw [accept, hlist]
  dsimp only
  rw [if_neg (not_not_intro he.name), he.params]
  rfl

/-- Only an answer of one element is accepted, and only if that is about compression. -/
theorem carries_of_accept (h : t.accept header = .ok agreed) :
    ∃ e ps, Extension.parseList header = [e] ∧ Carries e ps := by
  rw [accept] at h
  split at h
  next e hlist =>
    split at h
    next => cases h
    next hname =>
      cases hread : Params.ofList e.params with
      | error => rw [hread] at h; cases h
      | ok ps => exact ⟨e, ps, hlist, not_not.mp hname, hread⟩
  next => cases h

theorem accept_eq_ok_iff : t.accept header = .ok agreed ↔
    ∃ e ps, Extension.parseList header = [e] ∧ Carries e ps ∧
      t.acceptServerBits ps.serverBits = .ok agreed.serverBits ∧
      t.acceptClientBits ps.clientWindow = .ok agreed.clientBits ∧
      agreed.serverNoTakeover = ps.serverNoTakeover ∧
      agreed.clientNoTakeover = (ps.clientNoTakeover || t.clientNoTakeover) := by
  constructor
  · intro h
    obtain ⟨e, ps, hlist, he⟩ := carries_of_accept h
    rw [accept_of_carries hlist he] at h
    cases hserver : t.acceptServerBits ps.serverBits with
    | error => rw [hserver] at h; cases h
    | ok serverBits =>
      cases hclient : t.acceptClientBits ps.clientWindow with
      | error => rw [hserver, hclient] at h; cases h
      | ok clientBits =>
        rw [hserver, hclient] at h
        cases h
        exact ⟨e, ps, hlist, he, hserver, hclient, rfl, rfl⟩
  · rintro ⟨e, ps, hlist, he, hserver, hclient, hflags⟩
    obtain ⟨_, _, _, _⟩ := agreed
    obtain ⟨rfl, rfl⟩ := hflags
    rw [accept_of_carries hlist he, hserver, hclient]
    rfl

/-- The server's window is bounded by the offer, and one that is left out has the default size. -/
theorem acceptServerBits_eq_ok_iff {stated : Option Nat} : t.acceptServerBits stated = .ok n ↔
    n ≤ t.serverBits ∧ (stated = some n ∨ stated = none ∧ n = maxBits) := by
  cases stated with
  | none =>
    rw [acceptServerBits]
    split
    next hlt => simp; omega
    next hle => simp; omega
  | some m =>
    rw [acceptServerBits]
    split
    next hlt => simp; omega
    next hle => simp; omega

/-- The client's window is what the answer states, whatever was offered. -/
theorem acceptClientBits_eq_ok_iff {window : ClientWindow} : t.acceptClientBits window = .ok n ↔
    window = .bits n ∨ window = .absent ∧ n = t.clientBits := by
  cases window <;> simp [acceptClientBits, eq_comm]

/-- Accepted terms exceed the offer in no more than two ways.  The server's window is not larger
than it was offered, and the client forgets its own if it has said so.  But the client's window is
larger than it was offered whenever the answer states a larger one, and whether the server forgets
its window is what the answer states, also where the client has asked for it. -/
theorem accepted_terms_exceed_offer_as_stated (h : t.accept header = .ok agreed) :
    agreed.serverBits ≤ t.serverBits ∧
    (t.clientNoTakeover = true → agreed.clientNoTakeover = true) ∧
    ∃ e ps, Extension.parseList header = [e] ∧ Carries e ps ∧
      (t.clientBits < agreed.clientBits ↔ ∃ n, ps.clientWindow = .bits n ∧ t.clientBits < n) ∧
      agreed.serverNoTakeover = ps.serverNoTakeover := by
  obtain ⟨e, ps, hlist, he, hserver, hclient, hkept, hforgets⟩ := accept_eq_ok_iff.mp h
  refine ⟨(acceptServerBits_eq_ok_iff.mp hserver).1, ?_, e, ps, hlist, he, ?_, hkept⟩
  · intro hasked
    rw [hforgets, hasked, Bool.or_true]
  · rcases acceptClientBits_eq_ok_iff.mp hclient with hwindow | ⟨hwindow, hown⟩
    · simp [hwindow]
    · simp [hwindow, hown]

/-- The client has asked for small windows that are forgotten, and the server complies. -/
theorem compliant_answer_keeps_to_offer :
    lowMemory.accept "permessage-deflate; server_no_context_takeover; server_max_window_bits=9" =
        .ok ⟨9, 10, true, true⟩ ∧
      ∃ e ps, Extension.parseList
          "permessage-deflate; server_no_context_takeover; server_max_window_bits=9" = [e] ∧
        Carries e ps ∧ ps.serverNoTakeover = true := by
  have haccept : lowMemory.accept
      "permessage-deflate; server_no_context_takeover; server_max_window_bits=9" =
        .ok ⟨9, 10, true, true⟩ := by decide +kernel
  obtain ⟨-, -, e, ps, hlist, he, -, hflag⟩ := accepted_terms_exceed_offer_as_stated haccept
  exact ⟨haccept, e, ps, hlist, he, hflag.symm⟩

/-- An answer may ignore the wish that the server forgets its window, and it may give the client a
larger window than the client has offered. -/
theorem weaker_answers_are_accepted :
    (∃ t agreed : Terms, t.InRange ∧ t.accept "permessage-deflate" = .ok agreed ∧
      t.serverNoTakeover = true ∧ agreed.serverNoTakeover = false) ∧
    ∃ t agreed : Terms, t.InRange ∧
      t.accept "permessage-deflate; client_max_window_bits=12" = .ok agreed ∧
      t.clientBits < agreed.clientBits := by
  refine ⟨⟨{ serverNoTakeover := true }, {}, ?_, by decide +kernel, rfl, rfl⟩,
    { clientBits := 10 }, { clientBits := 12 }, ?_, by decide +kernel, by decide⟩
  · exact ⟨by decide, by decide, by decide, by decide⟩
  · exact ⟨by decide, by decide, by decide, by decide⟩

end Terms

end ChannelMux.Deflate
