import FileMagic.Registry

/-! A workshop is a registry at work. Contributors are registered and databases built in any order;
a name that is registered already is refused, and what has been built is kept. -/

namespace FileMagic

/-- What a registry can be asked for. -/
inductive Request where
  | register (name : Text) (rules : List Rule)
  | build

inductive Reply where
  | registered
  | refused (d : DuplicateName)
  | built (d : Database)

/-- A registry and the databases that it has built, in their order. -/
structure Workshop where
  registry : Registry
  databases : List Database

namespace Workshop

def fresh : Workshop := ⟨.empty, []⟩

def step (w : Workshop) : Request → Reply × Workshop
  | .register name rules =>
    match w.registry.register name rules with
    | .ok registry => (.registered, { w with registry })
    | .error d => (.refused d, w)
  | .build => (.built w.registry.build, { w with databases := w.databases ++ [w.registry.build] })

/-- The workshop after some requests. -/
def after (w : Workshop) (requests : List Request) : Workshop :=
  requests.foldl (fun now r => (now.step r).2) w

/-- The replies to requests, each made after those before it. -/
def replies (w : Workshop) : List Request → List Reply
  | [] => []
  | r :: rest => (w.step r).1 :: (w.step r).2.replies rest

end Workshop
end FileMagic
