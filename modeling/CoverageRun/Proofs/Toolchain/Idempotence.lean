/-
Provisioning twice. What a host has installed grows with each installation that passes, and its
listings show it. So where provisioning has come to its end all that is needed is listed, and there
is nothing left to install.
-/
import CoverageRun.Proofs.Toolchain.Listing
import CoverageRun.Proofs.Toolchain.Protocol

namespace CoverageRun.Toolchain

/-! ## Stocks -/

/-- What a host has installed: channels, the components of each channel, and tools. -/
structure Stock where
  channels : List Installed
  components : String → List Installed
  tools : List String

namespace Stock

/-- Nothing of a stock is lost. -/
structure Extends (a b : Stock) : Prop where
  channels : a.channels ⊆ b.channels
  components : ∀ channel, a.components channel ⊆ b.components channel
  tools : a.tools ⊆ b.tools

theorem Extends.refl (a : Stock) : a.Extends a :=
  ⟨List.Subset.refl _, fun _ => List.Subset.refl _, List.Subset.refl _⟩

theorem Extends.trans {a b c : Stock} (hab : a.Extends b) (hbc : b.Extends c) : a.Extends c :=
  ⟨List.Subset.trans hab.channels hbc.channels,
    fun channel => List.Subset.trans (hab.components channel) (hbc.components channel),
    List.Subset.trans hab.tools hbc.tools⟩

/-- A channel is listed. -/
def ListsChannel (a : Stock) (channel : String) : Prop := lists (listing a.channels) channel = true

/-- A component of a channel is listed. -/
def ListsComponent (a : Stock) (channel component : String) : Prop :=
  listsComponent (Toolchain.components (listing (a.components channel))) component = true

/-- All that is needed is there, as the listings tell. -/
structure Meets (a : Stock) (spec : Needs) : Prop where
  channel : a.ListsChannel spec.channel
  components : ∀ c ∈ spec.components.keys, a.ListsComponent spec.channel c
  tool : spec.tool ∈ a.tools

theorem ListsChannel.mono {a b : Stock} {channel : String} (h : a.ListsChannel channel)
    (hab : a.Extends b) : b.ListsChannel channel :=
  lists_mono hab.channels h

theorem ListsComponent.mono {a b : Stock} {channel component : String}
    (h : a.ListsComponent channel component) (hab : a.Extends b) : b.ListsComponent channel component :=
  listsComponent_mono (hab.components channel) h

end Stock

/-! ## Hosts with a stock -/

variable {σ : Type}

/-- A host that keeps a stock, as far as provisioning at a site goes: questions are answered from it
and change nothing, and what an installation that passes has installed is in it from then on, a
component under its stable name. -/
structure KeepsStock (h : Host σ) (s : Site) (stock : σ → Stock) : Prop where
  listsChannels : ∀ t x, ∃ out, h.run (s.command listChannels) t x = (.completed out, t, x) ∧
    out.passed = true ∧ out.stdout = listing (stock x).channels
  listsComponents : ∀ channel t x, ∃ out,
    h.run (s.command (listComponents channel)) t x = (.completed out, t, x) ∧
    out.passed = true ∧ out.stdout = listing ((stock x).components channel)
  tellsVersion : ∀ tool t x, ∃ answer, h.run (s.command (askVersion tool)) t x = (answer, t, x) ∧
    (answer.passes = true ↔ tool ∈ (stock x).tools)
  installsChannel : ∀ channel t x answer t' x',
    h.run (s.command (installChannel channel)) t x = (answer, t', x') → answer.passes = true →
    (stock x).Extends (stock x') ∧ ∃ i ∈ (stock x').channels, i.Targeted ∧ i.name = channel
  addsComponent : ∀ channel component t x answer t' x',
    h.run (s.command (addComponent channel component)) t x = (answer, t', x') → answer.passes = true →
    (stock x).Extends (stock x') ∧
    ∃ i ∈ (stock x').components channel, i.Targeted ∧ i.name = stableName component
  installsTool : ∀ tool t x answer t' x',
    h.run (s.command (installTool tool)) t x = (answer, t', x') → answer.passes = true →
    (stock x).Extends (stock x') ∧ tool ∈ (stock x').tools

/-- The world with more commands issued. -/
abbrev asked (w : World σ) (cs : List Command) : World σ := { w with issued := w.issued ++ cs }

/-! ## Single steps -/

variable {h : Host σ} {s : Site} {stock : σ → Stock} {spec : Needs} {w w' : World σ}

/-- A question that passes comes to its output. -/
theorem outcome_query {c : String × List String} {out : Completion}
    (hrun : h.run (s.command c) w.tree w.host = (.completed out, w.tree, w.host))
    (hp : out.passed = true) : outcome (query h s c) w = (.ok out.stdout, asked w [s.command c]) := by
  unfold query
  rw [outcome_bind, Action.outcome_issue, hrun]
  simp only [Answer.toExcept, if_pos hp]
  rfl

theorem outcome_listChannels (hh : KeepsStock h s stock) (w : World σ) :
    outcome (query h s listChannels) w =
      (.ok (listing (stock w.host).channels), asked w [s.command listChannels]) := by
  obtain ⟨out, hrun, hp, hout⟩ := hh.listsChannels w.tree w.host
  rw [outcome_query hrun hp, hout]

theorem outcome_listComponents (hh : KeepsStock h s stock) (channel : String) (w : World σ) :
    outcome (query h s (listComponents channel)) w =
      (.ok (listing ((stock w.host).components channel)),
        asked w [s.command (listComponents channel)]) := by
  obtain ⟨out, hrun, hp, hout⟩ := hh.listsComponents channel w.tree w.host
  rw [outcome_query hrun hp, hout]

/-- A tool that is asked for its version is there if the stock has it. -/
theorem outcome_hasTool (hh : KeepsStock h s stock) {tool : String} {present : Bool}
    (ho : outcome (hasTool h s tool) w = (.ok present, w')) :
    w' = asked w [s.command (askVersion tool)] ∧ (present = true ↔ tool ∈ (stock w.host).tools) := by
  obtain ⟨answer, hrun, hpasses⟩ := hh.tellsVersion tool w.tree w.host
  unfold hasTool at ho
  rw [outcome_tryCatch, outcome_bind, Action.outcome_issue, hrun] at ho
  rw [← hpasses]
  cases answer with
  | completed out => cases ho; exact ⟨rfl, Iff.rfl⟩
  | failed f => cases f <;> cases ho; exact ⟨rfl, Iff.rfl⟩
  | unending => cases ho

theorem outcome_hasTool_of_mem (hh : KeepsStock h s stock) {tool : String}
    (ht : tool ∈ (stock w.host).tools) :
    outcome (hasTool h s tool) w = (.ok true, asked w [s.command (askVersion tool)]) := by
  obtain ⟨answer, hrun, hpasses⟩ := hh.tellsVersion tool w.tree w.host
  have hp := hpasses.2 ht
  unfold hasTool
  rw [outcome_tryCatch, outcome_bind, Action.outcome_issue, hrun]
  cases answer with
  | completed out =>
    have hout : out.passed = true := hp
    simp only [Answer.toExcept, hout]
    rfl
  | failed f => cases hp
  | unending => cases hp

/-- An installation that the work goes on after has passed. -/
theorem outcome_install {c : String × List String} {complaint : String} {u : Unit}
    (ho : outcome (install h s c complaint) w = (.ok u, w')) :
    ∃ answer, h.run (s.command c) w.tree w.host = (answer, w'.tree, w'.host) ∧ answer.passes = true := by
  unfold install at ho
  obtain ⟨out, w₁, hissue, hrest⟩ := outcome_bind_eq_ok.1 ho
  rw [Action.outcome_issue] at hissue
  rcases hrun : h.run (s.command c) w.tree w.host with ⟨answer, t, x⟩
  rw [hrun] at hissue
  cases answer <;> cases hissue
  split at hrest
  · rename_i hp
    cases hrest
    exact ⟨_, rfl, hp⟩
  · cases hrest

/-- Where something is installed unless it is there, the work behind it has come to its end; and if it
was not there, its installation has passed. -/
theorem outcome_unless {α : Type} {there : Bool} {c : String × List String} {complaint : String}
    {work : Action σ α} {a : α}
    (ho : outcome
      (do
        if !there then install h s c complaint
        work) w = (.ok a, w')) :
    ∃ w₁, outcome work w₁ = (.ok a, w') ∧ (there = true ∧ w₁ = w ∨ there = false ∧
      ∃ answer, h.run (s.command c) w.tree w.host = (answer, w₁.tree, w₁.host) ∧
        answer.passes = true) := by
  cases there with
  | true => exact ⟨w, ho, .inl ⟨rfl, rfl⟩⟩
  | false =>
    obtain ⟨u, w₁, hinstall, hwork⟩ := outcome_bind_eq_ok.1 ho
    exact ⟨w₁, hwork, .inr ⟨rfl, outcome_install hinstall⟩⟩

/-! ## The first time -/

/-- Components that were not listed are there once they have been added. -/
theorem outcome_addMissing (hh : KeepsStock h s stock) {channel : String} {entries : List String} :
    ∀ {cs added : List String} {w w' : World σ},
      outcome (addMissing h s channel entries cs) w = (.ok added, w') →
      (stock w.host).Extends (stock w'.host) ∧ ∀ c ∈ cs, IsWord c → listsComponent entries c = true ∨
        (stock w'.host).ListsComponent channel c
  | [], _, _, _, ho => by
    cases ho
    exact ⟨.refl _, by simp⟩
  | c :: cs, added, w, w', ho => by
    unfold addMissing at ho
    by_cases hlisted : listsComponent entries c = true
    · rw [if_pos hlisted] at ho
      obtain ⟨hext, hrest⟩ := outcome_addMissing hh ho
      exact ⟨hext, List.forall_mem_cons.2 ⟨fun _ => .inl hlisted, hrest⟩⟩
    · rw [if_neg hlisted] at ho
      obtain ⟨u, w₁, hinstall, ho⟩ := outcome_bind_eq_ok.1 ho
      obtain ⟨rest, w₂, hcs, ho⟩ := outcome_bind_eq_ok.1 ho
      cases ho
      obtain ⟨answer, hrun, hp⟩ := outcome_install hinstall
      obtain ⟨hext, i, hmem, hi, hname⟩ := hh.addsComponent _ _ _ _ _ _ _ hrun hp
      obtain ⟨hext', hrest⟩ := outcome_addMissing hh hcs
      refine ⟨hext.trans hext', List.forall_mem_cons.2 ⟨fun hword => .inr ?_, hrest⟩⟩
      have hlists : (stock w₁.host).ListsComponent channel c := listsComponent_of_mem hmem hi hname hword
      exact hlists.mono hext'

/-- Once the channel has what it must have, components and tool are there. -/
theorem outcome_furnish (hh : KeepsStock h s stock) {listed : Bool} {changes : Changes}
    (hcomponents : ∀ c ∈ spec.components.keys, IsWord c)
    (ho : outcome (furnish h s spec listed) w = (.ok changes, w')) :
    (stock w.host).Extends (stock w'.host) ∧
      (∀ c ∈ spec.components.keys, (stock w'.host).ListsComponent spec.channel c) ∧
      spec.tool ∈ (stock w'.host).tools := by
  unfold furnish at ho
  obtain ⟨text, w₁, hlist, ho⟩ := outcome_bind_eq_ok.1 ho
  rw [outcome_listComponents hh] at hlist
  cases hlist
  obtain ⟨added, w₂, hadd, ho⟩ := outcome_bind_eq_ok.1 ho
  obtain ⟨hext, hlists⟩ := outcome_addMissing hh hadd
  obtain ⟨present, w₃, hask, ho⟩ := outcome_bind_eq_ok.1 ho
  obtain ⟨rfl, hpresent⟩ := outcome_hasTool hh hask
  obtain ⟨w₄, hpure, htool⟩ := outcome_unless ho
  cases hpure
  have hadded : ∀ c ∈ spec.components.keys, (stock w₂.host).ListsComponent spec.channel c := by
    intro c hc
    rcases hlists c hc (hcomponents c hc) with hthere | hthere
    · exact Stock.ListsComponent.mono (a := stock w.host) hthere hext
    · exact hthere
  rcases htool with ⟨rfl, rfl⟩ | ⟨-, answer, hrun, hp⟩
  · exact ⟨hext, hadded, hpresent.1 rfl⟩
  · obtain ⟨hext', hmem⟩ := hh.installsTool _ _ _ _ _ _ hrun hp
    exact ⟨hext.trans hext', fun c hc => (hadded c hc).mono hext', hmem⟩

/-- Where provisioning has come to its end, all that is needed is there. -/
theorem meets_of_provision (hh : KeepsStock h s stock) {changes : Changes}
    (hchannel : IsWord spec.channel) (hcomponents : ∀ c ∈ spec.components.keys, IsWord c)
    (ho : outcome (provision h s spec) w = (.ok changes, w')) :
    spec.validate = .ok () ∧ (stock w'.host).Meets spec := by
  rw [provision_eq] at ho
  obtain ⟨u, w₁, hvalid, ho⟩ := outcome_bind_eq_ok.1 ho
  rw [Action.outcome_ofExcept] at hvalid
  obtain ⟨text, w₂, hlist, ho⟩ := outcome_bind_eq_ok.1 ho
  have hvalidate : spec.validate = .ok () := by
    cases hv : spec.validate with
    | ok u => rfl
    | error e => rw [hv] at hvalid; cases hvalid
  rw [hvalidate] at hvalid
  cases hvalid
  rw [outcome_listChannels hh] at hlist
  cases hlist
  obtain ⟨w₃, hfurnish, hinstall⟩ := outcome_unless ho
  obtain ⟨hext, hlists, htool⟩ := outcome_furnish hh hcomponents hfurnish
  refine ⟨hvalidate, ?_, hlists, htool⟩
  rcases hinstall with ⟨hlisted, rfl⟩ | ⟨-, answer, hrun, hp⟩
  · exact Stock.ListsChannel.mono (a := stock w.host) hlisted hext
  · obtain ⟨-, i, hmem, hi, hname⟩ := hh.installsChannel _ _ _ _ _ _ hrun hp
    have hthere : (stock w₃.host).ListsChannel spec.channel :=
      hname ▸ lists_of_mem hmem hi (hname ▸ hchannel)
    exact hthere.mono hext

/-! ## The second time -/

/-- Components that are all listed are left alone. -/
theorem addMissing_of_listed {channel : String} {entries : List String} : ∀ {cs : List String},
    (∀ c ∈ cs, listsComponent entries c = true) → addMissing h s channel entries cs = pure []
  | [], _ => rfl
  | c :: cs, hlisted => by
    obtain ⟨hc, hcs⟩ := List.forall_mem_cons.1 hlisted
    rw [addMissing, if_pos hc, addMissing_of_listed hcs]

/-- Where all that is needed is there nothing is installed: three questions are asked, and the world
stays as it is. -/
theorem outcome_provision_of_meets (hh : KeepsStock h s stock) (hvalid : spec.validate = .ok ())
    (hmeets : (stock w.host).Meets spec) :
    outcome (provision h s spec) w = (.ok ⟨false, [], false⟩, asked w [s.command listChannels,
      s.command (listComponents spec.channel), s.command (askVersion spec.tool)]) := by
  have hlists : lists (listing (stock w.host).channels) spec.channel = true := hmeets.channel
  rw [provision_eq, outcome_bind, Action.outcome_ofExcept, hvalid]
  simp only [mapError_ok]
  rw [outcome_bind, outcome_listChannels hh]
  simp only [secure, hlists, Bool.not_true, Bool.false_eq_true, if_false]
  show outcome (furnish h s spec true) _ = _
  rw [furnish, outcome_bind, outcome_listComponents hh]
  simp only
  rw [outcome_bind, addMissing_of_listed hmeets.components, outcome_pure]
  simp only
  have hask : outcome (hasTool h s spec.tool) (asked (asked w [s.command listChannels])
      [s.command (listComponents spec.channel)]) = _ := outcome_hasTool_of_mem hh hmeets.tool
  rw [outcome_bind, hask]
  simp

/-- Provisioning is idempotent. On a host that keeps a stock, whatever is in it, what has come to its
end once comes to its end again: nothing is changed then, no installation is among the commands, and
tree and host stay as they were left. -/
theorem provision_idempotent (hh : KeepsStock h s stock) {changes : Changes}
    (hchannel : IsWord spec.channel) (hcomponents : ∀ c ∈ spec.components.keys, IsWord c)
    (hfirst : outcome (provision h s spec) w = (.ok changes, w')) :
    ∃ again, again.any = false ∧
      outcome (provision h s spec) w' = (.ok again, ⟨w'.tree, w'.host, w'.issued ++
        [s.command listChannels, s.command (listComponents spec.channel),
          s.command (askVersion spec.tool)]⟩) := by
  obtain ⟨hvalid, hmeets⟩ := meets_of_provision hh hchannel hcomponents hfirst
  exact ⟨⟨false, [], false⟩, rfl, outcome_provision_of_meets hh hvalid hmeets⟩

/-! ## A host with a stock -/

/-- The answer of a program that has passed. -/
def passing (stdout : String) : Answer Completion := .completed ⟨"", 0, stdout, "", true⟩

/-- The answer of a program that has not passed. -/
def failing : Answer Completion := .completed ⟨"", 1, "", "", false⟩

/-- A host for one target that keeps its stock as its state. Some components are not to be had. -/
def stockHost (target : String) (unavailable : List String) : Host Stock where
  run c t x :=
    match c.words.drop 1 with
    | ["toolchain", "list"] => (passing (listing x.channels), t, x)
    | ["toolchain", "install", channel, "--profile", "minimal"] =>
      (passing "", t, { x with channels := x.channels ++ [⟨channel, target⟩] })
    | ["component", "list", "--installed", "--toolchain", channel] =>
      (passing (listing (x.components channel)), t, x)
    | ["component", "add", component, "--toolchain", channel] =>
      if component ∈ unavailable then (failing, t, x)
      else (passing "", t, { x with
        components := Function.update x.components channel
          (x.components channel ++ [⟨stableName component, target⟩]) })
    | ["install", "--locked", tool] => (passing "", t, { x with tools := x.tools ++ [tool] })
    | ["--version"] =>
      (if c.words.headD "" ∈ x.tools then passing "" else failing, t, x)
    | _ => (failing, t, x)
  publish _ _ _ x := (.unending, x)

theorem keepsStock_stockHost (target : String) (htarget : isTarget target.toList = true)
    (hword : IsWord target) (unavailable : List String) (s : Site) :
    KeepsStock (stockHost target unavailable) s id where
  listsChannels t x := ⟨_, rfl, rfl, rfl⟩
  listsComponents channel t x := ⟨_, rfl, rfl, rfl⟩
  tellsVersion tool t x := by
    refine ⟨_, rfl, ?_⟩
    show (if tool ∈ x.tools then passing "" else failing).passes = true ↔ tool ∈ x.tools
    by_cases htool : tool ∈ x.tools
    · exact iff_of_true (by rw [if_pos htool]; rfl) htool
    · exact iff_of_false (by rw [if_neg htool]; decide) htool
  installsChannel channel t x answer t' x' hrun hp := by
    cases hrun
    exact ⟨⟨by simp, fun _ => List.Subset.refl _, List.Subset.refl _⟩, ⟨channel, target⟩, by simp,
      ⟨htarget, hword⟩, rfl⟩
  addsComponent channel component t x answer t' x' hrun hp := by
    have heq : (stockHost target unavailable).run (s.command (addComponent channel component)) t x =
        if component ∈ unavailable then (failing, t, x)
        else (passing "", t, { x with
          components := Function.update x.components channel
            (x.components channel ++ [⟨stableName component, target⟩]) }) := rfl
    rw [heq] at hrun
    split at hrun <;> cases hrun
    · cases hp
    · refine ⟨⟨List.Subset.refl _, fun channel' => ?_, List.Subset.refl _⟩,
        ⟨stableName component, target⟩, by simp, ⟨htarget, hword⟩, rfl⟩
      by_cases hc : channel' = channel
      · subst hc; simp
      · simp [Function.update_of_ne hc]
  installsTool tool t x answer t' x' hrun hp := by
    cases hrun
    exact ⟨⟨List.Subset.refl _, fun _ => List.Subset.refl _, by simp⟩, by simp⟩

/-- A stock in which a channel of the same name with a date is installed, and nothing else. -/
def datedStock : Stock := ⟨[⟨"nightly-2024-05-01", "x86_64-unknown-linux-gnu"⟩], fun _ => [], []⟩

/-- The site and the host that the standard needs are provided for at. -/
def standardProvision : Action Stock Changes :=
  provision (stockHost "x86_64-unknown-linux-gnu" ["miri"]) ⟨⟨"/work"⟩, 60⟩ .standard

theorem provision_idempotent_dated : ∃ w' : World Stock,
    outcome standardProvision ⟨.empty [], datedStock, []⟩ =
      (.ok ⟨true, ["llvm-tools-preview"], true⟩, w') ∧
    ∃ again issued, again.any = false ∧
      outcome standardProvision w' = (.ok again, ⟨w'.tree, w'.host, issued⟩) := by
  have hstock := keepsStock_stockHost "x86_64-unknown-linux-gnu" (by decide +kernel)
    (by decide +kernel) ["miri"] ⟨⟨"/work"⟩, 60⟩
  have hfirst : (outcome standardProvision ⟨.empty [], datedStock, []⟩).1.toOption =
      some ⟨true, ["llvm-tools-preview"], true⟩ := by decide +kernel
  rcases ho : outcome standardProvision ⟨.empty [], datedStock, []⟩ with ⟨halt | changes, w'⟩ <;>
    rw [ho] at hfirst <;> cases hfirst
  obtain ⟨again, hany, hagain⟩ := provision_idempotent hstock
    (by decide +kernel) (by decide +kernel) ho
  exact ⟨w', rfl, again, _, hany, hagain⟩

end CoverageRun.Toolchain
