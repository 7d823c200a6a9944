import ProviderManual.Schema.Registry

/-! The entries of a registry. -/

namespace ProviderManual.Schema

open ProviderManual.Source ProviderManual.Text ProviderManual.Manual

section Collecting

variable {ε α β : Type} {f : α → Except ε β} {xs : List α}

end Collecting

section Elements

variable {name constructor : String} {x key value : Expr} {e : RegistryFault}

end Elements

section Values

variable {elements : List Expr} {pairs : List (String × String)} {name constructor : String}

end Values

section Read

variable {type : ResourceType} {value : Expr} {elements : List Expr}

end Read

example : ((constructorNames .resource (some (.composite none [
    .keyValue (.basicLit .string "\x60acme_disk\x60") (.call (.ident "disk") []),
    .keyValue (.basicLit .string "\"acme\\x5fdisk\"") (.call (.ident "net") [])]))).toOption.bind
      (·.get? "acme_disk")) = some "net" := by
  decide +kernel

end ProviderManual.Schema
