import NotebookKernels.Kernel.Spec

/- The kinds of kernels that can be created, in the order of their names. -/
namespace NotebookKernels

/-- Kinds of kernels, each name once, in the order of the names. -/
abbrev Catalog := List KernelSpec

namespace Catalog

/-- Adds a kind of kernel; one of the same name is replaced. -/
def insert (spec : KernelSpec) : Catalog → Catalog
  | [] => [spec]
  | s :: r =>
    if spec.name < s.name then spec :: s :: r
    else if spec.name = s.name then spec :: r
    else s :: insert spec r

def ofList (specs : List KernelSpec) : Catalog := specs.foldl (fun c s => insert s c) []

/-- The kind of kernel with this name. -/
def find? (c : Catalog) (name : String) : Option KernelSpec := List.find? (·.name = name) c

end Catalog
end NotebookKernels
