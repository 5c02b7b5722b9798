import SqlCompose.Expr.Attribute
import SqlCompose.Proofs.Draft.Piece

/-!
# Settled drafts

A settled draft leaves nothing to other values than a dialect, so all of it is in its pieces: either
it has pieces, and assembling it writes them, or it has none, and assembling it fails. No draft ever
takes back what was bound before.
-/
namespace SqlCompose

/-- Whether a token opens or closes a parenthesis of an expression. -/
def Token.isBracket : Token → Bool
  | .opening | .closing => true
  | _ => false

/-- Whether a value has nothing to call under a name. -/
def Value.Lacks (cat : Catalog) (v : Value) (name : String) : Prop :=
  ∀ f, v.get cat name = .ok f → ∀ arguments, ∃ e, f.apply cat arguments = .error e

/-- Drafts that leave nothing to other values than a dialect. Parentheses come in pairs, and what is
written before its place binds nothing. A draft that binds nothing is settled for `false`. -/
inductive Draft.Settled (cat : Catalog) : Bool → Draft → Prop
  | token {b : Bool} {t : Token} (h : t.isBracket = false) : Settled cat b (.token t)
  | literal (v : Value) : Settled cat true (.literal v)
  | packed {b : Bool} (v : Value) : Settled cat b (.packed v)
  | name {b : Bool} (s : String) : Settled cat b (.name (.text s))
  | spelling {b : Bool} (keyword : String) : Settled cat b (.spelling keyword)
  | ask {b : Bool} (part : String) : Settled cat b (.ask part)
  | fail {b : Bool} (e : Error) : Settled cat b (.fail e)
  | member {b : Bool} {v : Value} {word : String} (h : v.Lacks cat word) :
    Settled cat b (.member v word)
  | before {b : Bool} {first rest : Draft} (hf : Settled cat false first)
    (hr : Settled cat b rest) : Settled cat b (.before first rest)
  | checked {b : Bool} {draft last : Draft} (hd : Settled cat b draft)
    (hl : Settled cat false last) : Settled cat b (.checked draft last)
  | plus {b : Bool} {x y : Draft} (hx : Settled cat b x) (hy : Settled cat b y) :
    Settled cat b (.plus x y)
  | extend {b : Bool} {x y : Draft} (hx : Settled cat b x) (hy : Settled cat b y) :
    Settled cat b (.extend x y)
  | shown {b : Bool} {x : Draft} (hx : Settled cat b x) : Settled cat b (.shown x)
  | row {b : Bool} {separator : Token} {items : List Draft} (h : separator.isBracket = false)
    (hi : ∀ x ∈ items, Settled cat b x) : Settled cat b (.row separator items)
  | parenthesized {b : Bool} {x : Draft} (hx : Settled cat b x) : Settled cat b x.parenthesized
  | call {b : Bool} (symbol : String) (lead : Option String) {items : List Draft}
    (hi : ∀ x ∈ items, Settled cat b x) : Settled cat b (callWith symbol lead items)

namespace Assembly

variable {α β : Type}

/-- Whether a step goes wrong whatever has been bound. -/
def Fails (step : Assembly α) : Prop :=
  ∀ bound : Array Value, ∃ e rest, step.run bound = (.error e, rest)

theorem run_bind_of_ok {step : Assembly α} {bound rest : Array Value} {a : α}
    (h : step.run bound = (.ok a, rest)) (next : α → Assembly β) :
    (step >>= next).run bound = (next a).run rest := by
  rw [ExceptT.run_bind]
  change StateT.bind step.run _ bound = _
  simp only [StateT.bind, h]
  rfl

theorem run_bind_of_error {step : Assembly α} {bound rest : Array Value} {e : Error}
    (h : step.run bound = (.error e, rest)) (next : α → Assembly β) :
    (step >>= next).run bound = (.error e, rest) := by
  rw [ExceptT.run_bind]
  change StateT.bind step.run _ bound = _
  simp only [StateT.bind, h]
  rfl

/-- A row of two steps that goes well has gone well in each of them. -/
theorem run_bind_eq_ok {step : Assembly α} {next : α → Assembly β} {bound rest : Array Value}
    {b : β} (h : (step >>= next).run bound = (.ok b, rest)) :
    ∃ a between, step.run bound = (.ok a, between) ∧ (next a).run between = (.ok b, rest) := by
  cases hs : step.run bound with
  | mk r between =>
    cases r with
    | error e =>
      rw [run_bind_of_error hs] at h
      cases h
    | ok a =>
      rw [run_bind_of_ok hs] at h
      exact ⟨a, between, rfl, h⟩

/-- A step that goes wrong goes wrong whatever was to follow. -/
theorem Fails.bind {step : Assembly α} (h : step.Fails) (next : α → Assembly β) :
    (step >>= next).Fails := by
  intro bound
  obtain ⟨e, rest, he⟩ := h bound
  exact ⟨e, rest, run_bind_of_error he next⟩

/-- A step that is followed by what goes wrong in any case goes wrong. -/
theorem Fails.after (step : Assembly α) {next : α → Assembly β} (h : ∀ a, (next a).Fails) :
    (step >>= next).Fails := by
  intro bound
  cases hs : step.run bound with
  | mk r rest =>
    cases r with
    | error e => exact ⟨e, rest, run_bind_of_error hs next⟩
    | ok a =>
      obtain ⟨e, rest', he⟩ := h a rest
      exact ⟨e, rest', by rw [run_bind_of_ok hs, he]⟩

theorem Fails.discard {step : Assembly α} (h : step.Fails) : (discard step).Fails := by
  change (Functor.mapConst PUnit.unit step).Fails
  rw [map_const, Function.comp_apply, map_eq_pure_bind]
  exact h.bind _

theorem fails_throw (e : Error) : (throw e : Assembly α).Fails :=
  fun bound => ⟨e, bound, rfl⟩

theorem fails_lift_bind {r : Except Error α} {next : α → Assembly β}
    (h : ∀ a, r = .ok a → (next a).Fails) : (lift r >>= next).Fails := by
  cases r with
  | error e => exact (fails_throw e).bind _
  | ok a => exact h a rfl

theorem discard_pure (a : α) : discard (pure a : Assembly α) = pure () := rfl

/-- Whether a step keeps what was bound before it, also where it goes wrong. -/
def Appends (step : Assembly α) : Prop :=
  ∀ bound : Array Value, bound.toList <+: (step.run bound).2.toList

theorem appends_pure (a : α) : (pure a : Assembly α).Appends := fun _ => List.prefix_rfl

theorem appends_lift (r : Except Error α) : (lift r).Appends := by
  cases r <;> exact fun _ => List.prefix_rfl

theorem Appends.bind {step : Assembly α} (h : step.Appends) {next : α → Assembly β}
    (hn : ∀ a, (next a).Appends) : (step >>= next).Appends := by
  intro bound
  have hb := h bound
  cases hs : step.run bound with
  | mk r rest =>
    rw [hs] at hb
    cases r with
    | error e => rwa [run_bind_of_error hs]
    | ok a =>
      rw [run_bind_of_ok hs]
      exact hb.trans (hn a rest)

theorem Appends.discard {step : Assembly α} (h : step.Appends) : (discard step).Appends := by
  change (Functor.mapConst PUnit.unit step).Appends
  rw [map_const, Function.comp_apply, map_eq_pure_bind]
  exact h.bind fun _ => appends_pure _

theorem appends_get : (get : Assembly (Array Value)).Appends := fun _ => List.prefix_rfl

theorem appends_push (v : Value) :
    (modify (·.push v) : Assembly PUnit).Appends := by
  intro bound
  change bound.toList <+: (bound.push v).toList
  simp

theorem appends_literal (cat : Catalog) (host : Host) (v : Value) :
    (literal cat host v).Appends := by
  cases host with
  | context d number =>
    simp only [literal, Assembly.bind]
    split
    · refine (appends_lift _).discard.bind fun _ => (appends_push v).bind fun _ => ?_
      exact appends_get.bind fun _ => appends_pure _
    · exact appends_lift _
  | other w => exact appends_lift _

end Assembly

namespace Draft

variable {cat : Catalog}

/-! ## What was bound before -/

mutual

/-- Writing a draft keeps what was bound before. -/
theorem appends_assemble (host : Host) : ∀ draft : Draft, (draft.assemble cat host).Appends
  | token _ => Assembly.appends_pure _
  | literal v => Assembly.appends_literal cat host v
  | inlined _ | packed _ | name _ | spelling _ | ofDialect _ => Assembly.appends_lift _
  | applied _ => Assembly.appends_get.bind fun _ => Assembly.appends_lift _
  | member _ _ =>
    (Assembly.appends_lift _).bind fun _ => Assembly.appends_get.bind fun _ =>
      Assembly.appends_lift _
  | ask _ => (Assembly.appends_lift _).bind fun _ => Assembly.appends_pure _
  | fail _ => fun _ => List.prefix_rfl
  | before first rest =>
    (appends_assemble host first).discard.bind fun _ => appends_assemble host rest
  | checked draft last =>
    (appends_assemble host draft).bind fun _ =>
      (appends_assemble host last).discard.bind fun _ => Assembly.appends_pure _
  | plus a b | extend a b =>
    (appends_assemble host a).bind fun _ => (appends_assemble host b).bind fun _ =>
      Assembly.appends_lift _
  | shown draft =>
    (appends_assemble host draft).bind fun _ => (Assembly.appends_lift _).bind fun _ =>
      Assembly.appends_pure _
  | row _ items => (appends_assembleAll host items).bind fun _ => Assembly.appends_lift _
  | framed _ opening items closing =>
    (appends_assembleAll host items).bind fun _ => (Assembly.appends_lift _).bind fun _ =>
      (appends_assemble host opening).bind fun _ => (Assembly.appends_lift _).bind fun _ =>
        (Assembly.appends_lift _).bind fun _ => (appends_assemble host closing).bind fun _ =>
          Assembly.appends_lift _

/-- Writing several drafts keeps what was bound before. -/
theorem appends_assembleAll (host : Host) :
    ∀ items : List Draft, (assembleAll cat host items).Appends
  | [] => Assembly.appends_pure _
  | x :: items =>
    (appends_assemble host x).bind fun _ => (appends_assembleAll host items).bind fun _ =>
      Assembly.appends_pure _

end

/-! ## Drafts with pieces -/

variable {d : Dialect} (style : PlaceholderStyle) (binding : Bool) (number : Nat)

/-- Drafts that are each written as their pieces are written so together. -/
theorem assembleAll_of_pieces {host : Host} {items : List Draft}
    (h : ∀ x ∈ items, ∀ ps, x.pieces cat d = .ok ps →
      x.assemble cat host = Value.text <$> Assembly.write cat (d.marking style binding) ps)
    {rows : List (List Piece)} (hrows : piecesAll cat d items = .ok rows) :
    assembleAll cat host items
      = List.map Value.text <$> Assembly.writeAll cat (d.marking style binding) rows := by
  induction items generalizing rows with
  | nil =>
    simp only [piecesAll, Except.ok.injEq] at hrows
    simp [assembleAll, Assembly.writeAll, ← hrows]
  | cons x items ih =>
    obtain ⟨xs, rest, hx, hrest, rfl⟩ := piecesAll_cons_eq_ok.1 hrows
    have hrec := ih (fun y hy => h y (by simp [hy])) hrest
    simp [assembleAll, Assembly.writeAll, h x (by simp) xs hx, hrec, map_eq_pure_bind,
      -bind_pure_comp]

variable (hd : d.WritesText)
include hd

/-- A draft that binds nothing has no values among its pieces. -/
theorem values_of_settled {draft : Draft} (h : Settled cat false draft) {ps : List Piece}
    (hp : draft.pieces cat d = .ok ps) : Piece.values ps = [] := by
  generalize hb : false = b at h
  induction h generalizing ps with
  | token ht =>
    simp only [pieces, Except.ok.injEq] at hp
    simp [← hp]
  | literal v => simp at hb
  | packed v =>
    rw [pieces_packed hd] at hp
    cases hv : d.literalText cat v with
    | error e => simp [hv, Except.map] at hp
    | ok s =>
      obtain rfl : [Piece.word s] = ps := by simpa [hv, Except.map] using hp
      rfl
  | name s =>
    obtain rfl := Except.ok.inj ((pieces_name hd s).symm.trans hp)
    rfl
  | spelling keyword =>
    obtain rfl := Except.ok.inj ((pieces_spelling hd keyword).symm.trans hp)
    rfl
  | ask part =>
    simp only [pieces, Except.ok.injEq] at hp
    simp [← hp]
  | fail e => simp [pieces] at hp
  | member h => simp [pieces] at hp
  | before hf hr ihf ihr => exact ihr (pieces_before_eq_ok.1 hp).2 hb
  | checked hd hl ihd ihl => exact ihd (pieces_checked_eq_ok.1 hp).1 hb
  | plus hx hy ihx ihy =>
    obtain ⟨xs, ys, hxs, hys, rfl⟩ := pieces_plus_eq_ok.1 hp
    simp [ihx hxs hb, ihy hys hb]
  | extend hx hy ihx ihy =>
    obtain ⟨xs, ys, hxs, hys, rfl⟩ := pieces_plus_eq_ok.1 hp
    simp [ihx hxs hb, ihy hys hb]
  | shown hx ih => exact ih hp hb
  | row h hi ih =>
    obtain ⟨rows, hrows, rfl⟩ := pieces_row_eq_ok.1 hp
    rw [Piece.values_separated, List.flatMap_eq_nil_iff]
    intro qs hqs
    obtain ⟨x, hx, hpx⟩ := mem_piecesAll hrows hqs
    exact ih x hx hpx hb
  | parenthesized hx ih =>
    obtain ⟨xs, hxs, rfl⟩ := pieces_parenthesized_eq_ok.1 hp
    simp [ih hxs hb]
  | call symbol lead hi ih =>
    obtain ⟨rows, hrows, rfl⟩ := (pieces_callWith_eq_ok hd).1 hp
    have hvalues : ∀ qs ∈ rows, Piece.values qs = [] := by
      intro qs hqs
      obtain ⟨x, hx, hpx⟩ := mem_piecesAll hrows hqs
      exact ih x hx hpx hb
    simpa using hvalues

attribute [local simp] assemble

theorem assemble_spelling (keyword : String) :
    (spelling keyword).assemble cat (.context (d.marking style binding) number)
      = pure (.text (d.spelled keyword)) := by
  have hs : (Host.context (d.marking style binding) number).consult cat
      (·.spelling cat (.text keyword)) (·.invoke cat "substitute" [.text keyword])
      = .ok (.text (d.spelled keyword)) := Dialect.spelling_eq_text cat hd keyword
  simp [hs, Assembly.lift]

/-- A call is opened without binding anything. -/
theorem assemble_opening (symbol : String) :
    (asking "function_sql" (spelling symbol) + token .opening).assemble cat
      (.context (d.marking style binding) number) = pure (.text (d.spelled symbol ++ "(")) := by
  change (plus (before (ask "function_sql") (spelling symbol)) (token .opening)).assemble cat _ = _
  rw [assemble, assemble, assemble, assemble_spelling style binding number hd]
  rfl

/-- A settled draft with pieces is written as its pieces, however values are marked. -/
theorem assemble_of_pieces {b : Bool} {draft : Draft} (h : Settled cat b draft) {ps : List Piece}
    (hp : draft.pieces cat d = .ok ps) :
    draft.assemble cat (.context (d.marking style binding) number)
      = Value.text <$> Assembly.write cat (d.marking style binding) ps := by
  induction h generalizing ps with
  | token ht =>
    simp only [pieces, Except.ok.injEq] at hp
    simp [Assembly.write_ofToken, ← hp]
  | literal v =>
    simp only [pieces, Except.ok.injEq] at hp
    simp [Assembly.write, ← hp, Assembly.literal_eq_mark cat (hd.marking style binding)]
  | packed v =>
    rw [pieces_packed hd] at hp
    cases hv : d.literalText cat v with
    | error e => simp [hv, Except.map] at hp
    | ok s =>
      obtain rfl : [Piece.word s] = ps := by simpa [hv, Except.map] using hp
      simp [Host.pack, Dialect.pack_eq_text cat hd, hv, Except.map, Assembly.lift,
        Assembly.write]
  | name s =>
    obtain rfl := Except.ok.inj ((pieces_name hd s).symm.trans hp)
    simp [Host.quote, Dialect.quote_eq_text cat hd, Assembly.lift, Assembly.write]
  | spelling keyword =>
    obtain rfl := Except.ok.inj ((pieces_spelling hd keyword).symm.trans hp)
    rw [assemble_spelling style binding number hd]
    simp [Assembly.write]
  | ask part =>
    simp only [pieces, Except.ok.injEq] at hp
    simp [Assembly.write, ← hp, Host.checkPart, Host.dialect]
    rfl
  | fail e => simp [pieces] at hp
  | member h => simp [pieces] at hp
  | before hf hr ihf ihr =>
    obtain ⟨⟨xs, hxs⟩, hys⟩ := pieces_before_eq_ok.1 hp
    obtain ⟨s, hs⟩ := Assembly.write_of_values_eq_nil cat (d.marking style binding)
      (values_of_settled hd hf hxs)
    simp [ihf hxs, ihr hys, hs, Assembly.discard_pure]
  | checked hx hl ihx ihl =>
    obtain ⟨hxs, ys, hys⟩ := pieces_checked_eq_ok.1 hp
    obtain ⟨s, hs⟩ := Assembly.write_of_values_eq_nil cat (d.marking style binding)
      (values_of_settled hd hl hys)
    simp [ihx hxs, ihl hys, hs, Assembly.discard_pure]
  | plus hx hy ihx ihy =>
    obtain ⟨xs, ys, hxs, hys, rfl⟩ := pieces_plus_eq_ok.1 hp
    simp [ihx hxs, ihy hys, Assembly.write_append, map_eq_pure_bind, Assembly.lift,
      -bind_pure_comp]
  | extend hx hy ihx ihy =>
    obtain ⟨xs, ys, hxs, hys, rfl⟩ := pieces_plus_eq_ok.1 hp
    simp [ihx hxs, ihy hys, Assembly.write_append, map_eq_pure_bind, Assembly.lift,
      -bind_pure_comp]
  | shown hx ih =>
    simp [ih hp, map_eq_pure_bind, Assembly.lift, -bind_pure_comp]
  | row ht hi ih =>
    obtain ⟨rows, hrows, rfl⟩ := pieces_row_eq_ok.1 hp
    have hall := assembleAll_of_pieces style binding (fun x hx ps => ih x hx) hrows
    simp [hall, Assembly.write_separated, map_eq_pure_bind, Assembly.lift,
      -bind_pure_comp]
  | @parenthesized b x hx ih =>
    obtain ⟨xs, hxs, rfl⟩ := pieces_parenthesized_eq_ok.1 hp
    rw [show x.parenthesized = plus (plus (.token .opening) x) (.token .closing) from rfl]
    simp [ih hxs, Assembly.write, Assembly.write_append, map_eq_pure_bind, Assembly.lift,
      String.append_assoc, -bind_pure_comp]
  | call symbol lead hi ih =>
    obtain ⟨rows, hrows, rfl⟩ := (pieces_callWith_eq_ok hd).1 hp
    have hall := assembleAll_of_pieces style binding (fun x hx ps => ih x hx) hrows
    rw [callWith, assemble, hall, assemble_opening style binding number hd, assemble]
    simp [Assembly.write, Assembly.write_append, Assembly.write_separated, Assembly.writeAll_led,
      Assembly.led_map_text, map_eq_pure_bind, Assembly.lift, Token.spelling, String.append_assoc,
      -bind_pure_comp]

/-! ## Drafts without pieces -/

omit hd in
theorem fails_assembleAll {host : Host} {items : List Draft}
    (h : ∀ x ∈ items, ∀ e, x.pieces cat d = .error e → (x.assemble cat host).Fails) {e : Error}
    (he : piecesAll cat d items = .error e) : (assembleAll cat host items).Fails := by
  induction items with
  | nil => simp [piecesAll] at he
  | cons x items ih =>
    simp only [piecesAll, Except.bind_eq_error_iff] at he
    rw [assembleAll]
    rcases he with hx | ⟨xs, hx, hrest | ⟨rest, hrest, hr⟩⟩
    · exact (h x (by simp) e hx).bind _
    · have hfail := ih (fun y hy => h y (by simp [hy])) hrest
      exact Assembly.Fails.after _ fun _ => hfail.bind _
    · simp [pure, Except.pure] at hr

/-- A settled draft without pieces cannot be written. -/
theorem fails_of_pieces {b : Bool} {draft : Draft} (h : Settled cat b draft) {e : Error}
    (hp : draft.pieces cat d = .error e) :
    (draft.assemble cat (.context (d.marking style binding) number)).Fails := by
  induction h generalizing e with
  | token ht => simp [pieces] at hp
  | literal v => simp [pieces] at hp
  | packed v =>
    rw [pieces_packed hd] at hp
    cases hv : d.literalText cat v with
    | error e =>
      simp only [assemble, Host.pack, Dialect.pack_marking, Dialect.pack_eq_text cat hd, hv]
      exact Assembly.fails_throw e
    | ok s => simp [hv, Except.map] at hp
  | name s => simp [pieces_name hd] at hp
  | spelling keyword => simp [pieces_spelling hd] at hp
  | ask part => simp [pieces] at hp
  | fail e' =>
    rw [assemble]
    exact Assembly.fails_throw e'
  | @member b v word hl =>
    rw [assemble]
    cases hv : v.get cat word with
    | error e => exact (Assembly.fails_throw e).bind _
    | ok f =>
      refine Assembly.fails_lift_bind fun g hg => Assembly.Fails.after _ fun bound => ?_
      obtain rfl := Except.ok.inj hg
      obtain ⟨e, he⟩ := hl f hv [Host.value bound (.context (d.marking style binding) number)]
      rw [he]
      exact Assembly.fails_throw e
  | before hf hr ihf ihr =>
    simp only [pieces, Except.bind_eq_error_iff, Except.discard_eq_error_iff] at hp
    rw [assemble]
    rcases hp with hx | ⟨u, hx, hy⟩
    · exact (ihf hx).discard.bind _
    · exact Assembly.Fails.after _ fun _ => ihr hy
  | checked hx hl ihx ihl =>
    simp only [pieces, Except.bind_eq_error_iff, Except.discard_eq_error_iff] at hp
    rw [assemble]
    rcases hp with hx | ⟨xs, hx, hy | ⟨u, hy, hr⟩⟩
    · exact (ihx hx).bind _
    · exact Assembly.Fails.after _ fun _ => (ihl hy).discard.bind _
    · simp [pure, Except.pure] at hr
  | plus hx hy ihx ihy =>
    rw [assemble]
    rcases pieces_plus_eq_error hp with hx | hy
    · exact (ihx hx).bind _
    · exact Assembly.Fails.after _ fun _ => (ihy hy).bind _
  | extend hx hy ihx ihy =>
    rw [assemble]
    rw [pieces_extend] at hp
    rcases pieces_plus_eq_error hp with hx | hy
    · exact (ihx hx).bind _
    · exact Assembly.Fails.after _ fun _ => (ihy hy).bind _
  | shown hx ih => exact (ih hp).bind _
  | row ht hi ih =>
    simp only [pieces, Except.bind_pure_eq_error_iff] at hp
    exact (fails_assembleAll (fun x hx e => ih x hx) hp).bind _
  | @parenthesized b x hx ih =>
    have hx := pieces_parenthesized_eq_error hp
    change (assemble cat _ (plus (plus (.token .opening) x) (.token .closing))).Fails
    rw [assemble, assemble]
    exact (Assembly.Fails.after _ fun _ => (ih hx).bind _).bind _
  | call symbol lead hi ih =>
    have hitems := pieces_callWith_eq_error hd hp
    rw [callWith, assemble]
    exact (fails_assembleAll (fun x hx e => ih x hx) hitems).bind _

end Draft

end SqlCompose
