import Relink.Text.Quoted

/-!
# The loader

The scripts in front of the modules of a bundle. They end in a function that takes the table of
modules, the id of the entry, the aliases and the externals. The loader of a main bundle keeps the
modules and runs the entry; that of a plugin hands everything over to the main bundle.

* `Loader.front` — the text before the table of modules.
* `Loader.back` — the text behind it.
-/

namespace Relink

/-- The part that a bundle plays. -/
inductive Role where
  | main
  | plugin
  deriving DecidableEq, Repr, Inhabited

namespace Loader

/-- The loader of a main bundle, up to the name of the entry. -/
def mainFront : String :=
  "\n".intercalate [
    "(function(root, factory) \x7b",
    "  const bokeh = factory();",
    "  if (typeof root.Bokeh === \"undefined\" || root.Bokeh.register_plugin == null) \x7b",
    "    root.Bokeh = bokeh;",
    "  \x7d",
    "\x7d)(this, function() \x7b",
    "  const parent_require = typeof require === \"function\" ? require : null;",
    "  return (function(modules, entry, aliases, externals) \x7b",
    "    if (aliases == null) aliases = \x7b\x7d;",
    "    if (externals == null) externals = \x7b\x7d;",
    "    const cache = \x7b\x7d;",
    "",
    "    function normalize(name) \x7b",
    "      if (typeof name === \"number\")",
    "        return name;",
    "      if (name === "]

/-- The loader of a main bundle behind the name of the entry. -/
def mainBack : String :=
  "\n".intercalate [
    ")",
    "        return entry;",
    "      const alias = aliases[name];",
    "      if (alias != null)",
    "        return alias;",
    "      const index = aliases[name.replace(/\\/$/, \"\") + \"/index\"];",
    "      if (index != null)",
    "        return index;",
    "      return name;",
    "    \x7d",
    "",
    "    function not_found(name) \x7b",
    "      const error = new Error(\"Cannot find module '\" + name + \"'\");",
    "      error.code = \"MODULE_NOT_FOUND\";",
    "      return error;",
    "    \x7d",
    "",
    "    function require(name) \x7b",
    "      const id = normalize(name);",
    "      const cached = cache[id];",
    "      if (cached != null)",
    "        return cached.exports;",
    "",
    "      const factory = modules[id];",
    "      if (factory == null) \x7b",
    "        if (Object.prototype.hasOwnProperty.call(externals, id)) \x7b",
    "          if (externals[id] === false)",
    "            return \x7b\x7d;",
    "          if (parent_require != null)",
    "            return parent_require(id);",
    "        \x7d",
    "        throw not_found(name);",
    "      \x7d",
    "",
    "      const module = \x7bid: id, exports: \x7b\x7d, loaded: false\x7d;",
    "      cache[id] = module;",
    "",
    "      function __esModule() \x7b",
    "        Object.defineProperty(module.exports, \"__esModule\", \x7bvalue: true\x7d);",
    "      \x7d",
    "      function __esExport(name, value) \x7b",
    "        Object.defineProperty(module.exports, name, \x7benumerable: true, get: function() \x7b return value; \x7d\x7d);",
    "      \x7d",
    "",
    "      factory.call(module.exports, require, module, module.exports, __esModule, __esExport);",
    "      module.loaded = true;",
    "      return module.exports;",
    "    \x7d",
    "",
    "    const main = require(entry);",
    "    main.require = require;",
    "",
    "    main.register_plugin = function(plugin_modules, plugin_entry, plugin_aliases, plugin_externals) \x7b",
    "      for (const id in plugin_modules)",
    "        modules[id] = plugin_modules[id];",
    "      for (const name in plugin_aliases)",
    "        aliases[name] = plugin_aliases[name];",
    "      for (const name in plugin_externals)",
    "        externals[name] = plugin_externals[name];",
    "",
    "      const plugin = require(plugin_entry);",
    "      for (const name of Object.keys(plugin))",
    "        main[name] = plugin[name];",
    "      return plugin;",
    "    \x7d;",
    "",
    "    return main;",
    "  \x7d)"]

/-- The loader of a plugin. -/
def plugin : String :=
  "\n".intercalate [
    "(function(root, factory) \x7b",
    "  factory(root.Bokeh);",
    "\x7d)(this, function(Bokeh) \x7b",
    "  return (function(modules, entry, aliases, externals) \x7b",
    "    if (Bokeh == null || Bokeh.register_plugin == null)",
    "      throw new Error(\"Cannot find Bokeh. You have to load it prior to loading plugins.\");",
    "    return Bokeh.register_plugin(modules, entry, aliases, externals);",
    "  \x7d)"]

/-- The loader in front of the modules; `entryAlias` is a name for the entry of a main bundle. -/
def front (role : Role) (entryAlias : String) : String :=
  match role with
  | .main => mainFront ++ quoted entryAlias ++ mainBack
  | .plugin => plugin

/-- The end of the loader. -/
def back : String := "\n\x7d)\n"

end Loader

end Relink
