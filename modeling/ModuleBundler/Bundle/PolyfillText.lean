/-!
# The built-in polyfills

The texts of the scripts every bundle starts with: a prelude (development or production), a
module system (bundled or unbundled), and the language polyfills, in load order.
-/

namespace ModuleBundler

namespace Polyfill

/-- The prelude of a development bundle: sets the development flag and the start time. -/
def preludeDev : String := String.join [
  "global.__DEV__ = true;\n",
  "\n",
  "global.__BUNDLE_START_TIME__ = Date.now();\n"]

/-- The prelude of a production bundle: clears the development flag and sets the start time. -/
def prelude : String := String.join [
  "global.__DEV__ = false;\n",
  "\n",
  "global.__BUNDLE_START_TIME__ = Date.now();\n"]

/-- The module system: `__d` defines a module, `require` runs it once, `__accept` replaces it. -/
def requireSystem : String := String.join [
  "\x27use strict\x27;\n",
  "\n",
  "var modules = Object.create(null);\n",
  "var inGuard = false;\n",
  "\n",
  "function define(moduleId, factory) \x7b\n",
  "  if (moduleId in modules) \x7b\n",
  "    // Redefinitions are ignored; hot updates go through __accept.\n",
  "    return;\n",
  "  \x7d\n",
  "  modules[moduleId] = \x7b\n",
  "    factory: factory,\n",
  "    hasError: false,\n",
  "    isInitialized: false,\n",
  "    exports: undefined,\n",
  "  \x7d;\n",
  "\x7d\n",
  "\n",
  "function require(moduleId) \x7b\n",
  "  var mod = modules[moduleId];\n",
  "  if (mod && mod.isInitialized) \x7b\n",
  "    return mod.exports;\n",
  "  \x7d\n",
  "  return requireImpl(moduleId);\n",
  "\x7d\n",
  "\n",
  "function requireImpl(moduleId) \x7b\n",
  "  var mod = modules[moduleId];\n",
  "  if (!mod) \x7b\n",
  "    var msg = \x27Requiring unknown module \"\x27 + moduleId + \x27\".\x27;\n",
  "    if (__DEV__) \x7b\n",
  "      msg += \x27 If you are sure the module is there, try restarting the packager.\x27;\n",
  "    \x7d\n",
  "    throw new Error(msg);\n",
  "  \x7d\n",
  "  if (mod.hasError) \x7b\n",
  "    throw new Error(\n",
  "      \x27Requiring module \"\x27 + moduleId + \x27\" which threw an exception.\x27\n",
  "    );\n",
  "  \x7d\n",
  "\n",
  "  try \x7b\n",
  "    // Mark as initialized before running the factory so cycles terminate.\n",
  "    mod.isInitialized = true;\n",
  "    var module = \x7b exports: \x7b\x7d \x7d;\n",
  "    mod.module = module;\n",
  "    mod.factory.call(global, global, require, module, module.exports);\n",
  "    mod.factory = undefined;\n",
  "    mod.exports = module.exports;\n",
  "    return mod.exports;\n",
  "  \x7d catch (e) \x7b\n",
  "    mod.hasError = true;\n",
  "    mod.isInitialized = false;\n",
  "    throw e;\n",
  "  \x7d\n",
  "\x7d\n",
  "\n",
  "function accept(moduleId, factory) \x7b\n",
  "  var mod = modules[moduleId];\n",
  "  if (!mod) \x7b\n",
  "    define(moduleId, factory);\n",
  "    return;\n",
  "  \x7d\n",
  "  mod.factory = factory;\n",
  "  mod.hasError = false;\n",
  "  mod.isInitialized = false;\n",
  "  require(moduleId);\n",
  "\x7d\n",
  "\n",
  "global.__d = define;\n",
  "global.require = require;\n",
  "global.__accept = accept;\n"]

/-- The module system of an unbundled build, which loads modules on first require. -/
def requireUnbundle : String := String.join [
  "\x27use strict\x27;\n",
  "\n",
  "var modules = Object.create(null);\n",
  "var nativeRequire = global.nativeRequire;\n",
  "\n",
  "function define(moduleId, factory) \x7b\n",
  "  if (moduleId in modules) \x7b\n",
  "    return;\n",
  "  \x7d\n",
  "  modules[moduleId] = \x7b\n",
  "    factory: factory,\n",
  "    hasError: false,\n",
  "    isInitialized: false,\n",
  "    exports: undefined,\n",
  "  \x7d;\n",
  "\x7d\n",
  "\n",
  "function require(moduleId) \x7b\n",
  "  var mod = modules[moduleId];\n",
  "  if (mod && mod.isInitialized) \x7b\n",
  "    return mod.exports;\n",
  "  \x7d\n",
  "  if (!mod && typeof nativeRequire === \x27function\x27) \x7b\n",
  "    // Module bodies are loaded lazily from separate files.\n",
  "    nativeRequire(moduleId);\n",
  "    mod = modules[moduleId];\n",
  "  \x7d\n",
  "  if (!mod) \x7b\n",
  "    throw new Error(\x27Requiring unknown module \"\x27 + moduleId + \x27\".\x27);\n",
  "  \x7d\n",
  "  if (mod.hasError) \x7b\n",
  "    throw new Error(\n",
  "      \x27Requiring module \"\x27 + moduleId + \x27\" which threw an exception.\x27\n",
  "    );\n",
  "  \x7d\n",
  "  try \x7b\n",
  "    mod.isInitialized = true;\n",
  "    var module = \x7b exports: \x7b\x7d \x7d;\n",
  "    mod.factory.call(global, global, require, module, module.exports);\n",
  "    mod.factory = undefined;\n",
  "    mod.exports = module.exports;\n",
  "    return mod.exports;\n",
  "  \x7d catch (e) \x7b\n",
  "    mod.hasError = true;\n",
  "    mod.isInitialized = false;\n",
  "    throw e;\n",
  "  \x7d\n",
  "\x7d\n",
  "\n",
  "global.__d = define;\n",
  "global.require = require;\n"]

/-- Small language polyfills. -/
def polyfills : String := String.join [
  "if (typeof Object.assign !== \x27function\x27) \x7b\n",
  "  Object.assign = function(target) \x7b\n",
  "    if (target == null) \x7b\n",
  "      throw new TypeError(\x27Object.assign target cannot be null or undefined\x27);\n",
  "    \x7d\n",
  "    var to = Object(target);\n",
  "    for (var i = 1; i < arguments.length; i++) \x7b\n",
  "      var source = arguments[i];\n",
  "      if (source == null) \x7b\n",
  "        continue;\n",
  "      \x7d\n",
  "      for (var key in source) \x7b\n",
  "        if (Object.prototype.hasOwnProperty.call(source, key)) \x7b\n",
  "          to[key] = source[key];\n",
  "        \x7d\n",
  "      \x7d\n",
  "    \x7d\n",
  "    return to;\n",
  "  \x7d;\n",
  "\x7d\n"]

/-- The global error guard. -/
def errorGuard : String := String.join [
  "var ErrorUtils = \x7b\n",
  "  _inGuard: 0,\n",
  "  _globalHandler: null,\n",
  "  setGlobalHandler: function(fun) \x7b\n",
  "    ErrorUtils._globalHandler = fun;\n",
  "  \x7d,\n",
  "  getGlobalHandler: function() \x7b\n",
  "    return ErrorUtils._globalHandler;\n",
  "  \x7d,\n",
  "  reportError: function(error) \x7b\n",
  "    ErrorUtils._globalHandler && ErrorUtils._globalHandler(error);\n",
  "  \x7d,\n",
  "  reportFatalError: function(error) \x7b\n",
  "    ErrorUtils._globalHandler && ErrorUtils._globalHandler(error, true);\n",
  "  \x7d,\n",
  "  applyWithGuard: function(fun, context, args) \x7b\n",
  "    try \x7b\n",
  "      ErrorUtils._inGuard++;\n",
  "      return fun.apply(context, args);\n",
  "    \x7d catch (e) \x7b\n",
  "      ErrorUtils.reportError(e);\n",
  "    \x7d finally \x7b\n",
  "      ErrorUtils._inGuard--;\n",
  "    \x7d\n",
  "  \x7d,\n",
  "  inGuard: function() \x7b\n",
  "    return ErrorUtils._inGuard;\n",
  "  \x7d,\n",
  "  guard: function(fun, name, context) \x7b\n",
  "    if (typeof fun !== \x27function\x27) \x7b\n",
  "      return null;\n",
  "    \x7d\n",
  "    name = name || fun.name || \x27<generated guard>\x27;\n",
  "    return function guarded() \x7b\n",
  "      return ErrorUtils.applyWithGuard(fun, context || this, arguments);\n",
  "    \x7d;\n",
  "  \x7d,\n",
  "\x7d;\n",
  "\n",
  "global.ErrorUtils = ErrorUtils;\n"]

/-- String methods of ES2015. -/
def stringPrototype : String := String.join [
  "if (!String.prototype.startsWith) \x7b\n",
  "  String.prototype.startsWith = function(search, position) \x7b\n",
  "    var pos = position ? Number(position) || 0 : 0;\n",
  "    return this.indexOf(String(search), pos) === pos;\n",
  "  \x7d;\n",
  "\x7d\n",
  "\n",
  "if (!String.prototype.endsWith) \x7b\n",
  "  String.prototype.endsWith = function(search, position) \x7b\n",
  "    var str = String(this);\n",
  "    var end = position === undefined ? str.length : Math.min(Number(position) || 0, str.length);\n",
  "    var start = end - String(search).length;\n",
  "    return start >= 0 && str.lastIndexOf(String(search), start) === start;\n",
  "  \x7d;\n",
  "\x7d\n",
  "\n",
  "if (!String.prototype.includes) \x7b\n",
  "  String.prototype.includes = function(search, start) \x7b\n",
  "    return String(this).indexOf(String(search), start || 0) !== -1;\n",
  "  \x7d;\n",
  "\x7d\n",
  "\n",
  "if (!String.prototype.repeat) \x7b\n",
  "  String.prototype.repeat = function(count) \x7b\n",
  "    var n = Number(count) || 0;\n",
  "    if (n < 0 || n === Infinity) \x7b\n",
  "      throw new RangeError(\x27Invalid count value\x27);\n",
  "    \x7d\n",
  "    var out = \x27\x27;\n",
  "    for (var i = 0; i < n; i++) \x7b\n",
  "      out += this;\n",
  "    \x7d\n",
  "    return out;\n",
  "  \x7d;\n",
  "\x7d\n"]

/-- Array methods of ES2015. -/
def arrayPrototype : String := String.join [
  "if (!Array.prototype.findIndex) \x7b\n",
  "  Object.defineProperty(Array.prototype, \x27findIndex\x27, \x7b\n",
  "    enumerable: false,\n",
  "    writable: true,\n",
  "    configurable: true,\n",
  "    value: function(predicate, context) \x7b\n",
  "      if (this == null) \x7b\n",
  "        throw new TypeError(\x27Array.prototype.findIndex called on null or undefined\x27);\n",
  "      \x7d\n",
  "      var list = Object(this);\n",
  "      var length = list.length >>> 0;\n",
  "      for (var i = 0; i < length; i++) \x7b\n",
  "        if (predicate.call(context, list[i], i, list)) \x7b\n",
  "          return i;\n",
  "        \x7d\n",
  "      \x7d\n",
  "      return -1;\n",
  "    \x7d,\n",
  "  \x7d);\n",
  "\x7d\n",
  "\n",
  "if (!Array.prototype.find) \x7b\n",
  "  Object.defineProperty(Array.prototype, \x27find\x27, \x7b\n",
  "    enumerable: false,\n",
  "    writable: true,\n",
  "    configurable: true,\n",
  "    value: function(predicate, context) \x7b\n",
  "      var index = Array.prototype.findIndex.call(this, predicate, context);\n",
  "      return index === -1 ? undefined : this[index];\n",
  "    \x7d,\n",
  "  \x7d);\n",
  "\x7d\n",
  "\n",
  "if (!Array.prototype.includes) \x7b\n",
  "  Object.defineProperty(Array.prototype, \x27includes\x27, \x7b\n",
  "    enumerable: false,\n",
  "    writable: true,\n",
  "    configurable: true,\n",
  "    value: function(searchElement) \x7b\n",
  "      return Array.prototype.indexOf.call(this, searchElement) !== -1;\n",
  "    \x7d,\n",
  "  \x7d);\n",
  "\x7d\n"]

/-- Array functions of ES2015. -/
def arrayStatics : String := String.join [
  "if (!Array.from) \x7b\n",
  "  Array.from = function(arrayLike) \x7b\n",
  "    if (arrayLike == null) \x7b\n",
  "      throw new TypeError(\x27Array.from requires an array-like object\x27);\n",
  "    \x7d\n",
  "    var mapFn = arguments[1];\n",
  "    var context = arguments[2];\n",
  "    var items = Object(arrayLike);\n",
  "    var out = [];\n",
  "    for (var i = 0; i < (items.length >>> 0); i++) \x7b\n",
  "      out.push(mapFn ? mapFn.call(context, items[i], i) : items[i]);\n",
  "    \x7d\n",
  "    return out;\n",
  "  \x7d;\n",
  "\x7d\n",
  "\n",
  "if (!Array.of) \x7b\n",
  "  Array.of = function() \x7b\n",
  "    return Array.prototype.slice.call(arguments);\n",
  "  \x7d;\n",
  "\x7d\n"]

/-- Helpers that compiled code calls. -/
def babelHelpers : String := String.join [
  "var babelHelpers = global.babelHelpers = \x7b\x7d;\n",
  "\n",
  "babelHelpers.interopRequireDefault = function(obj) \x7b\n",
  "  return obj && obj.__esModule ? obj : \x7b default: obj \x7d;\n",
  "\x7d;\n",
  "\n",
  "babelHelpers.extends = Object.assign || function(target) \x7b\n",
  "  for (var i = 1; i < arguments.length; i++) \x7b\n",
  "    var source = arguments[i];\n",
  "    for (var key in source) \x7b\n",
  "      if (Object.prototype.hasOwnProperty.call(source, key)) \x7b\n",
  "        target[key] = source[key];\n",
  "      \x7d\n",
  "    \x7d\n",
  "  \x7d\n",
  "  return target;\n",
  "\x7d;\n",
  "\n",
  "babelHelpers.classCallCheck = function(instance, Constructor) \x7b\n",
  "  if (!(instance instanceof Constructor)) \x7b\n",
  "    throw new TypeError(\x27Cannot call a class as a function\x27);\n",
  "  \x7d\n",
  "\x7d;\n",
  "\n",
  "babelHelpers.objectWithoutProperties = function(obj, keys) \x7b\n",
  "  var target = \x7b\x7d;\n",
  "  for (var i in obj) \x7b\n",
  "    if (keys.indexOf(i) >= 0) continue;\n",
  "    if (!Object.prototype.hasOwnProperty.call(obj, i)) continue;\n",
  "    target[i] = obj[i];\n",
  "  \x7d\n",
  "  return target;\n",
  "\x7d;\n"]

/-- The file names and texts of the language polyfills, in load order. -/
def language : List (String × String) :=
  [("polyfills.js", polyfills), ("error-guard.js", errorGuard),
   ("String.prototype.es6.js", stringPrototype), ("Array.prototype.es6.js", arrayPrototype),
   ("Array.es6.js", arrayStatics), ("babelHelpers.js", babelHelpers)]

end Polyfill

end ModuleBundler
