import Mathlib.Logic.Function.Basic
import Xineliboutput.Foundation.Machine
import Xineliboutput.Post.PluginOrder
import Xineliboutput.Post.PluginUnload

/-!
# Wires between post plugins

`vpplugin_rewire_posts`, `vpplugin_enable_post` and their twins for audio in `post.c`, with the
other calls of `fe_post_open` and `fe_post_close`: what the stream passes on its way to the port.
-/

namespace Xineliboutput.Post

open Xineliboutput.Foundation Xineliboutput.Foundation.Machine

set_option autoImplicit false

inductive PostSource where
  | stream
  | pipStream
  | output (post : Nat)
  deriving DecidableEq

/-- An input is found by its name or by its number. -/
inductive PostTarget where
  | port
  | named (post : Nat) (name : String)
  | numbered (post : Nat) (number : Nat)
  deriving DecidableEq

/-- What `xine_post_wire` and the like have joined on a side. -/
abbrev Wires := PostSource → Option PostTarget

structure PostChain where
  fe : PostPlugins
  wires : Wires

/-- The names of the inputs of the plugins, and whether there is a `pip_stream`. -/
structure PostSetting where
  inputs : Nat → List String
  pipStream : Bool

def PostSide.inputNames : PostSide → List String
  | .video => ["video", "video in"]
  | .audio => ["audio", "audio in"]

/-- "look for standard input names" -/
def standardInput (side : PostSide) (setting : PostSetting) (post : Nat) : Option PostTarget :=
  (side.inputNames.find? fun name => name ∈ setting.inputs post).map (.named post)

/-- A round of `_vpplugin_rewire_from_post_elements`. -/
def wireRound (side : PostSide) (setting : PostSetting) (elements : PostArray) (wires : Wires)
    (i : Nat) : Option Wires :=
  (elementAt elements.cells i).bind fun element =>
    if i + 1 = elements.num then
      some (Function.update wires (.output element.post) (some .port))
    else
      (elementAt elements.cells (i + 1)).map fun next =>
        Function.update wires (.output element.post) (standardInput side setting next.post)

/-- `_vpplugin_rewire_from_post_elements`, `_applugin_rewire_from_post_elements` -/
def rewireFromPostElements (side : PostSide) (setting : PostSetting) (pipEnable : Int)
    (elements : PostArray) (wires : Wires) : Option Wires :=
  if elements.num = 0 then some wires
  else
    ((List.range elements.num).reverse.foldlM (wireRound side setting elements) wires).bind
      fun wires => (elementAt elements.cells 0).map fun head =>
        let wires :=
          if side = .video ∧ pipEnable ≠ 0 ∧ head.name = "mosaico" ∧ setting.pipStream then
            Function.update wires .pipStream (some (.numbered head.post 1))
          else wires
        Function.update wires .stream (some (.numbered head.post 0))

def PostSide.join : PostSide → PostPlugins → Option PostArray
  | .video => joinDeinterlaceAndPostElements
  | .audio => joinVisualizationAndPostElements

/-- `_vpplugin_unwire`, `_applugin_unwire` -/
def unwire (wires : Wires) : Wires := Function.update wires .stream (some .port)

/-- `vpplugin_rewire_posts`, `applugin_rewire_posts` -/
def rewirePosts (side : PostSide) (setting : PostSetting) (chain : PostChain) : Option PostChain :=
  (side.join chain.fe).bind fun elements =>
    (rewireFromPostElements side setting chain.fe.postPipEnable elements (unwire chain.wires)).map
      fun wires => { chain with wires }

/-- What has been found under a name, and whether it was disabled. -/
structure Enabling where
  cells : PostCells
  result : Bool
  found : Bool

def enableRound (name : String) (state : Enabling) (i : Nat) : Option Enabling :=
  (state.cells[i]?).bind fun cell =>
    match cell with
    | none => some state
    | some element =>
        if element.name = name then
          if element.enable = .disabled then
            (storeCell state.cells i (some { element with enable := .enabled })).map fun cells =>
              ⟨cells, true, true⟩
          else some { state with found := true }
        else some state

/-- `_pplugin_enable_post` -/
def pluginEnablePost (name : String) (elements : PostArray) : Option Enabling :=
  (List.range elements.num).foldlM (enableRound name) ⟨elements.cells, false, false⟩

structure Enabled where
  fe : PostPlugins
  result : Bool
  found : Bool

/-- `_vpplugin_enable_post`, `_applugin_enable_post` -/
def enableFound (side : PostSide) (fe : PostPlugins) (name : String) : Option Enabled :=
  (pluginEnablePost name (side.arrays fe).1).bind fun first =>
    let fe := side.replace fe (⟨first.cells, (side.arrays fe).1.num⟩, (side.arrays fe).2)
    if first.found then some ⟨fe, first.result, true⟩
    else
      (pluginEnablePost name (side.arrays fe).2).map fun second =>
        ⟨side.replace fe ((side.arrays fe).1, ⟨second.cells, (side.arrays fe).2.num⟩),
          second.result, second.found⟩

/-- `pplugin_parse_and_store_post`, with the plugins that could be loaded. -/
def parseAndStorePost (elements : PostArray) (loaded : List PostElement) : PostArray :=
  if loaded = [] then elements
  else
    ⟨elements.cells.take elements.num ++ loaded.map some ++ [none], elements.num + loaded.length⟩

/-- `vpplugin_enable_post`, `applugin_enable_post` but for their unwiring. -/
def enablePost (side : PostSide) (fe : PostPlugins) (name : String)
    (loaded : List PostElement × List PostElement) : Option Enabled :=
  (enableFound side fe name).bind fun enabled =>
    if enabled.found then some enabled
    else
      enableFound side (side.replace enabled.fe
        (parseAndStorePost (side.arrays enabled.fe).1 loaded.1,
          parseAndStorePost (side.arrays enabled.fe).2 loaded.2)) name

/-- The flag that `fe_post_open` sets; `vis` is one of the visualizations. -/
def PostSide.setEnable (side : PostSide) (vis : Bool) (fe : PostPlugins) : PostPlugins :=
  match side, vis with
  | .video, _ => { fe with postVideoEnable := 1 }
  | .audio, false => { fe with postAudioEnable := 1 }
  | .audio, true => { fe with postVisEnable := 1 }

inductive PostCall where
  | open (name : String) (vis : Bool) (loaded : List PostElement × List PostElement)
  | enablePip
  | disable (name : Option String)
  | unload (name : Option String)
  | rewire
  deriving DecidableEq

def PostChain.after (chain : PostChain) (outcome : PostOutcome) (side : PostSide) : PostChain where
  fe := outcome.fe
  wires := if .unwire side ∈ outcome.events then unwire chain.wires else chain.wires

/-- "if(vpplugin_unload_post(posts, name)) vpplugin_rewire_posts(posts);" and the like -/
def rewireAfter (side : PostSide) (setting : PostSetting) (chain : PostChain)
    (outcome : PostOutcome) : Option PostChain :=
  if outcome.result then rewirePosts side setting (chain.after outcome side)
  else some (chain.after outcome side)

def PostChain.perform (side : PostSide) (setting : PostSetting) (chain : PostChain) :
    PostCall → Option PostChain
  | .open name vis loaded =>
      (enablePost side chain.fe name loaded).bind fun enabled =>
        if enabled.result then
          rewirePosts side setting ⟨side.setEnable vis enabled.fe, unwire chain.wires⟩
        else some { chain with fe := enabled.fe }
  | .enablePip => some { chain with fe := { chain.fe with postPipEnable := 1 } }
  | .disable name => (side.disable chain.fe name).bind (rewireAfter side setting chain)
  | .unload name => (side.unload chain.fe name).bind (rewireAfter side setting chain)
  | .rewire => rewirePosts side setting chain

/-! ## What the stream passes -/

/-- From here the wires go through these plugins, one after the other, to the port. -/
inductive Leads (wires : Wires) : PostSource → List Nat → Prop where
  | port {source : PostSource} (wired : wires source = some .port) : Leads wires source []
  | named {source : PostSource} {post : Nat} {name : String} {rest : List Nat}
      (wired : wires source = some (.named post name)) (onward : Leads wires (.output post) rest) :
      Leads wires source (post :: rest)
  | numbered {source : PostSource} {post : Nat} {rest : List Nat}
      (wired : wires source = some (.numbered post 0)) (onward : Leads wires (.output post) rest) :
      Leads wires source (post :: rest)

/-- What is known of a state between two calls. -/
structure Orderly (side : PostSide) (setting : PostSetting) (fe : PostPlugins)
    (first second : List PostElement) : Prop where
  held : ∃ spare spare', side.arrays fe = (.holding first spare, .holding second spare')
  distinct : ((first ++ second).map PostElement.post).Nodup
  entered : ∀ post ∈ (first ++ second).map PostElement.post,
    (standardInput side setting post).isSome

section Wiring

variable {side : PostSide} {setting : PostSetting} {wires : Wires} {source other : PostSource}
  {target : Option PostTarget} {path : List Nat} {fe : PostPlugins}
  {first second : List PostElement}

end Wiring

/-! ## The calls -/

section Calls

variable {side : PostSide} {setting : PostSetting} {fe : PostPlugins} {name : String}
  {elements first second first' second' : List PostElement} {spare spare' : PostCells}
  {chain : PostChain}

/-- What the calls ask of a state. Plugins that are loaded are new ones with a standard input; the
elements of the picture in picture are not enabled before its flag is set; and with no name only
elements that can be disabled are in use, where there are any. -/
def PostCall.Proper (side : PostSide) (setting : PostSetting) (fe : PostPlugins) (call : PostCall) :
    Prop :=
  ∀ first second, Orderly side setting fe first second →
    match call with
    | .open _ _ loaded =>
        (((first ++ loaded.1) ++ (second ++ loaded.2)).map PostElement.post).Nodup ∧
        ∀ element ∈ loaded.1 ++ loaded.2, element.enable = .disabled ∧
          (standardInput side setting element.post).isSome
    | .enablePip =>
        side = .video → fe.postPipEnable = 0 → ∀ element ∈ second, element.enable = .disabled
    | .unload none =>
        (∃ element ∈ first ++ second, element.enable = .enabled) ∨
          ∀ element ∈ first ++ second, element.enable = .disabled
    | .unload (some _) | .disable _ | .rewire => True

end Calls

/-! ## Runs -/

def plainSetting : PostSetting := ⟨fun _ => ["video"], false⟩

end Xineliboutput.Post
