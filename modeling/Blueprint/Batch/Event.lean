import Blueprint.Batch.Error
import Blueprint.Log
import Blueprint.Structure.Compile

/-!
# What a run reports on its way

Every event has a level, the name of the part of the program it comes from, and a text.
The parts are named after the program, whose filters may mention them.
-/

namespace Blueprint

/-- Something that happens during a run. -/
inductive Event where
  /-- a plan is turned or mirrored -/
  | transforming (options : CompileOptions)
  /-- a connector stands in the cell of a block -/
  | jigsawReplaces (pos : Pos)
  /-- there is no directory for templates of a kind -/
  | noTemplates (kind : TemplateKind) (directory : Path)
  | templateLoaded (kind : TemplateKind) (name : String) (keys : Nat)
  | allowlistLoaded (path : Path) (blocks : Nat)
  | templatesLoaded (count : Nat) (path : Path)
  /-- the plans are known and compiling begins -/
  | compiling (plans jobs : Nat) (options : CompileOptions)
  | wrote (path : Path)
  | planFailed (failure : PlanFailure)
  | finished (compiled failed : Nat)
  /-- the run fails -/
  | fatal (e : RunError)

namespace Event

/-- How important the event is. -/
def level : Event → LogLevel
  | transforming _ => .debug
  | jigsawReplaces _ => .debug
  | noTemplates .. => .debug
  | templateLoaded .. => .debug
  | wrote _ => .debug
  | planFailed _ => .warn
  | fatal _ => .error
  | _ => .info

/-- The part of the program that the event comes from. -/
def target : Event → String
  | transforming _ => "structgen::compiler"
  | jigsawReplaces _ => "structgen::compiler"
  | noTemplates .. => "structgen::templates"
  | templateLoaded .. => "structgen::templates"
  | fatal _ => "structgen"
  | _ => "structgen::batch"

/-- The text of the event. -/
def text : Event → String
  | transforming o => s!"transforming: rotate={o.rotation.text} mirror={o.mirror.text}"
  | jigsawReplaces pos => s!"jigsaw replaces block at {pos.text}"
  | noTemplates kind directory => s!"no {kind.text} templates under {directory.text}"
  | templateLoaded kind name keys => s!"loaded {kind.text} template '{name}' ({keys} keys)"
  | allowlistLoaded path blocks => s!"loaded allowlist {path.text} ({blocks} blocks)"
  | templatesLoaded count path => s!"loaded {count} templates from {path.text}"
  | compiling plans jobs o =>
    s!"compiling {plans} plans with {jobs} jobs (rotate={o.rotation.text} " ++
      s!"mirror={o.mirror.text} entities={o.includeEntities})"
  | wrote path => s!"wrote {path.text}"
  | planFailed failure => failure.message
  | finished compiled failed => s!"batch finished: compiled={compiled} failed={failed}"
  | fatal e => e.message

end Event

namespace Plan

/-- The connectors of a plan that stand in the cell of a block, after the move that the
options ask for. -/
def replacements (options : CompileOptions) (p : Plan) : List Event :=
  let moved := p.transform options.rotation options.mirror
  (moved.jigsaws.filter fun j => moved.blocks.any fun b => b.pos = j.pos).map fun j =>
    .jigsawReplaces j.pos

/-- What compiling the plan reports, given its result. A plan is moved once it has passed
its checks as authored, and connectors replace blocks once nothing can fail any more. -/
def events (biome : Option String) (ctx : CompileContext) (options : CompileOptions) (p : Plan)
    (result : Except PlanError Structure) : List Event :=
  let move := if options.keepsPlace then [] else [Event.transforming options]
  match result with
  | .ok _ => move ++ p.replacements options
  | .error _ =>
    match p.authored biome ctx with
    | .ok _ => move
    | .error _ => []

end Plan

end Blueprint
